import Mathlib.Data.List.Induction
import Mathlib.Order.Monotone.Defs
import Qualigence.Desktop.Daemon
import Qualigence.Desktop.PermitUse
import Qualigence.Protocol.Instant

/-! # When permits expire

A permit expires a fixed time after it is minted, whatever the expiry of the authorization is
that it was requested under. An action is written to the worker before the deadline of its
request, which may lie after the expiry of the permit that was consumed. So an authorization is
honoured when it leaves time for both.
-/

namespace Qualigence.Desktop

open Protocol (parseInstant)

variable {α : Type} {E : Environment} {A : Approver α} {approver : α} {permitTtlMs : ℕ}
  {ops : List DaemonOp} {d : DaemonState α}

/-- The answer to a permit request, which is one of the operations. -/
def Answered (E : Environment) (permitTtlMs : ℕ) (ops : List DaemonOp) (a : PermitAnswer) :
    Prop :=
  ∃ i request, ops[i]? = some (.permitRequest request) ∧
    a.authorization = request.authorization ∧ a.permit.token = E.token i ∧
    a.permit.expiresAtMs ≤ E.nowMs i + permitTtlMs

/-- The entries of the companion are permits that were answered. -/
structure Backed (E : Environment) (permitTtlMs : ℕ) (answers : List PermitAnswer)
    (c : Companion α) : Prop where
  ttl : c.permits.defaultTtlMs = permitTtlMs
  entries : ∀ token entry, c.permits.entries (PermitStore.tokenHash E token) = some entry →
    ∃ a ∈ answers, a.permit.token = token ∧ entry.expiresAtMs ≤ a.permit.expiresAtMs

/-- The execution request is one of the operations. -/
def Arrived (ops : List DaemonOp) (i : ℕ) (payload : ActionExecutePayload) : Prop :=
  ∃ verified, ops[i]? = some (.actionExecute payload verified)

/-- A request that has consumed a permit ends soon after the permit expires. -/
structure ThreadLive (E : Environment) (ops : List DaemonOp) (answers : List PermitAnswer)
    (r : ActionRequest) : Prop where
  arrived : ∃ i, Arrived ops i r.payload ∧ r.deadline = E.nowMs i + r.payload.deadlineMs
  prepared : r.stage = .prepared → ∃ a ∈ answers,
    a.permit.token = r.payload.permit.permitToken ∧
    r.deadline < a.permit.expiresAtMs + r.payload.deadlineMs

variable (E permitTtlMs) in
structure ExpiryInv (ops : List DaemonOp) (d : DaemonState α) : Prop where
  answered : ∀ a ∈ d.answers, Answered E permitTtlMs ops a
  backed : ∀ sessionId c, d.companions sessionId = some c → Backed E permitTtlMs d.answers c
  threads : ∀ r ∈ d.actionThreads, ThreadLive E ops d.answers r
  dispatched : ∀ w ∈ d.dispatches, (∃ i, Arrived ops i w.payload) ∧ ∃ a ∈ d.answers,
    a.permit.token = w.payload.permit.permitToken ∧
    w.atMs + 1 < a.permit.expiresAtMs + w.payload.deadlineMs

/-! ## More answers, more operations -/

theorem Answered.append {a : PermitAnswer} (h : Answered E permitTtlMs ops a) (op : DaemonOp) :
    Answered E permitTtlMs (ops ++ [op]) a := by
  obtain ⟨i, request, hi, hrest⟩ := h
  have hlt := (List.getElem?_eq_some_iff.mp hi).1
  exact ⟨i, request, (List.getElem?_append_left hlt).trans hi, hrest⟩

theorem Arrived.append {i : ℕ} {payload : ActionExecutePayload} (h : Arrived ops i payload)
    (op : DaemonOp) : Arrived (ops ++ [op]) i payload := by
  obtain ⟨verified, hi⟩ := h
  have hlt := (List.getElem?_eq_some_iff.mp hi).1
  exact ⟨verified, (List.getElem?_append_left hlt).trans hi⟩

theorem Backed.mono {answers answers' : List PermitAnswer} {c : Companion α}
    (h : Backed E permitTtlMs answers c) (hsub : ∀ a ∈ answers, a ∈ answers') :
    Backed E permitTtlMs answers' c := by
  refine ⟨h.ttl, fun token entry hentry => ?_⟩
  obtain ⟨a, ha, hrest⟩ := h.entries token entry hentry
  exact ⟨a, hsub a ha, hrest⟩

theorem ThreadLive.mono {answers answers' : List PermitAnswer} {r : ActionRequest}
    (h : ThreadLive E ops answers r) (hsub : ∀ a ∈ answers, a ∈ answers') (op : DaemonOp) :
    ThreadLive E (ops ++ [op]) answers' r := by
  refine ⟨?_, fun hstage => ?_⟩
  · obtain ⟨i, hi, hdeadline⟩ := h.arrived
    exact ⟨i, hi.append op, hdeadline⟩
  · obtain ⟨a, ha, hrest⟩ := h.prepared hstage
    exact ⟨a, hsub a ha, hrest⟩

theorem ExpiryInv.append (h : ExpiryInv E permitTtlMs ops d) (op : DaemonOp) :
    ExpiryInv E permitTtlMs (ops ++ [op]) d where
  answered a ha := (h.answered a ha).append op
  backed := h.backed
  threads r hr := (h.threads r hr).mono (fun _ => id) op
  dispatched w hw := by
    obtain ⟨⟨i, hi⟩, hrest⟩ := h.dispatched w hw
    exact ⟨⟨i, hi.append op⟩, hrest⟩

/-! ## Companions -/

section Companions

variable {answers : List PermitAnswer} {c : Companion α} {n : ℕ}

theorem backed_new (sessionId runId : String) :
    Backed E permitTtlMs answers
      (.new sessionId ⟨runId, .new, approver⟩ (.new permitTtlMs)) :=
  ⟨rfl, nofun⟩

theorem Backed.emergencyStop (h : Backed E permitTtlMs answers c) :
    Backed E permitTtlMs answers c.emergencyStop :=
  ⟨h.ttl, nofun⟩

theorem Backed.authorizeAction (h : Backed E permitTtlMs answers c) (token : String)
    (presented : PermitBinding) :
    Backed E permitTtlMs answers (c.authorizeAction E n token presented).2 := by
  unfold Companion.authorizeAction
  rcases consume_cases E c.permits n c.approval.control token presented with
    ⟨error, heq⟩ | ⟨-, -, old, hold, -, -, -, heq⟩
  · rw [heq]
    exact h
  · rw [heq]
    refine ⟨h.ttl, fun token' entry hentry => ?_⟩
    simp only [PermitStore.entries_insert] at hentry
    split at hentry
    · next hhash =>
      cases hentry
      exact h.entries token' old (hhash ▸ hold)
    · exact h.entries token' entry hentry

theorem Backed.prepareDesktopActionRequest (h : Backed E permitTtlMs answers c)
    (payload : ActionExecutePayload) :
    Backed E permitTtlMs answers (prepareDesktopActionRequest E c n payload).2 := by
  unfold Desktop.prepareDesktopActionRequest
  dsimp only
  split
  · exact h
  split
  · exact h
  split
  · exact h
  have hauth := h.authorizeAction (n := n) payload.permit.permitToken payload.permit.binding
  split
  · next c' heq =>
    rw [heq] at hauth
    exact hauth
  · next error c' heq =>
    rw [heq] at hauth
    exact hauth

/-- A request that is prepared has consumed a permit that is not expired. -/
theorem entry_of_prepare {payload : ActionExecutePayload}
    (h : (Desktop.prepareDesktopActionRequest E c n payload).1 = .ok ()) :
    ∃ entry, c.permits.entries (PermitStore.tokenHash E payload.permit.permitToken) = some entry ∧
      E.nowMs n < entry.expiresAtMs := by
  unfold Desktop.prepareDesktopActionRequest Companion.authorizeAction at h
  dsimp only at h
  split at h
  · cases h
  split at h
  · cases h
  split at h
  · cases h
  rcases consume_cases E c.permits n c.approval.control payload.permit.permitToken
    payload.permit.binding with ⟨error, heq⟩ | ⟨-, -, entry, hentry, -, hnow, -, -⟩
  · rw [heq] at h
    cases h
  · exact ⟨entry, hentry, hnow⟩

theorem saturatingAdd_le (a b : ℕ) : saturatingAdd a b ≤ a + b := Nat.min_le_left _ _

end Companions

/-! ## Operations -/

variable {n : ℕ}

theorem backed_companionFor (approver : α) (h : ExpiryInv E permitTtlMs ops d)
    (sessionId runId : String) :
    Backed E permitTtlMs d.answers (d.companionFor approver permitTtlMs sessionId runId) := by
  unfold DaemonState.companionFor
  cases hc : d.companions sessionId with
  | none => exact backed_new sessionId runId
  | some c => exact h.backed sessionId c hc

theorem ExpiryInv.setCompanion (h : ExpiryInv E permitTtlMs ops d) {c : Companion α}
    (hc : Backed E permitTtlMs d.answers c) (sessionId : String) :
    ExpiryInv E permitTtlMs ops (d.setCompanion sessionId c) := by
  refine ⟨h.answered, fun id c' hc' => ?_, h.threads, h.dispatched⟩
  rw [DaemonState.companions_setCompanion] at hc'
  split at hc'
  · cases hc'
    exact hc
  · exact h.backed id c' hc'

theorem ExpiryInv.mapCompanions (h : ExpiryInv E permitTtlMs ops d)
    {f : Companion α → Companion α}
    (hf : ∀ c, Backed E permitTtlMs d.answers c → Backed E permitTtlMs d.answers (f c)) :
    ExpiryInv E permitTtlMs ops (d.mapCompanions f) := by
  refine ⟨h.answered, fun id c hc => ?_, h.threads, h.dispatched⟩
  unfold DaemonState.mapCompanions at hc
  dsimp only at hc
  split at hc
  · obtain ⟨c', hc', rfl⟩ := Option.map_eq_some_iff.mp hc
    exact hf c' (h.backed id c' hc')
  · exact h.backed id c hc

theorem ExpiryInv.setThread (h : ExpiryInv E permitTtlMs ops d) {thread : ℕ}
    {request : ActionRequest} {stage : RequestStage}
    (hr : ThreadLive E ops d.answers { request with stage }) :
    ExpiryInv E permitTtlMs ops (d.setThread thread request stage) := by
  refine ⟨h.answered, h.backed, fun r hmem => ?_, h.dispatched⟩
  rcases List.mem_or_eq_of_mem_set hmem with hold | rfl
  · exact h.threads r hold
  · exact hr

/-- A permit is minted and answered. -/
theorem ExpiryInv.answer (hdigest : Function.Injective E.sha256Hex)
    (h : ExpiryInv E permitTtlMs ops d) (request : LocalPermitRequest) {c : Companion α}
    (hc : Backed E permitTtlMs d.answers c) (approval : ApprovalState α) (binding : PermitBinding)
    (a : PermitAnswer)
    (ha : a = ⟨mintedPermit E c.permits ops.length binding, request.authorization⟩) :
    ExpiryInv E permitTtlMs (ops ++ [.permitRequest request])
      { d.setCompanion request.sessionId
          { c with approval, permits := (c.permits.issue E ops.length binding).2 } with
        answers := d.answers ++ [a] } := by
  have hsub : ∀ a' ∈ d.answers, a' ∈ d.answers ++ [a] := fun _ => List.mem_append_left _
  refine ⟨fun a' ha' => ?_, fun id c' hc' => ?_, fun r hr => ?_, fun w hw => ?_⟩
  · rcases List.mem_append.mp ha' with hold | hnew
    · exact (h.answered a' hold).append _
    · obtain rfl := List.mem_singleton.mp hnew
      subst ha
      refine ⟨ops.length, request, List.getElem?_concat_length, rfl, rfl, ?_⟩
      rw [← hc.ttl]
      exact saturatingAdd_le _ _
  · simp only [DaemonState.companions_setCompanion] at hc'
    split at hc'
    · cases hc'
      refine ⟨hc.ttl, fun token entry hentry => ?_⟩
      rw [entries_issue] at hentry
      split at hentry
      · next hhash =>
        cases hentry
        refine ⟨a, by simp, ?_, ?_⟩
        · rw [ha, hash_injective hdigest hhash]
          rfl
        · rw [ha]
      · obtain ⟨a', ha', hrest⟩ := hc.entries token entry hentry
        exact ⟨a', hsub a' ha', hrest⟩
    · exact (h.backed id c' hc').mono hsub
  · exact (h.threads r hr).mono hsub _
  · obtain ⟨⟨i, hi⟩, a', ha', hrest⟩ := h.dispatched w hw
    exact ⟨⟨i, hi.append _⟩, a', hsub a' ha', hrest⟩

theorem ExpiryInv.permitRequest (hdigest : Function.Injective E.sha256Hex)
    (h : ExpiryInv E permitTtlMs ops d) (request : LocalPermitRequest) :
    ExpiryInv E permitTtlMs (ops ++ [.permitRequest request])
      (d.permitRequest E A approver permitTtlMs ops.length request).2 := by
  have hbacked := backed_companionFor approver h request.sessionId request.runId
  unfold DaemonState.permitRequest
  dsimp only
  split
  · exact h.append _
  split
  · exact h.append _
  split
  · exact h.append _
  generalize d.companionFor approver permitTtlMs request.sessionId request.runId = c at hbacked ⊢
  generalize PermitBinding.mk _ _ _ _ _ _ = binding
  generalize ApprovalRequest.mk _ _ _ _ _ _ = approval
  rcases requestPermit_cases (E := E) (A := A) c ops.length approval binding with
    ⟨decision, state, -, heq⟩ | ⟨-, state, -, heq⟩
  · rw [heq]
    exact (h.setCompanion (c := { c with approval := state }) ⟨hbacked.ttl, hbacked.entries⟩
      request.sessionId).append _
  · rw [heq]
    exact h.answer hdigest request hbacked state binding _ rfl

theorem ExpiryInv.actionExecute (h : ExpiryInv E permitTtlMs ops d)
    (payload : ActionExecutePayload) (verified : Bool) :
    ExpiryInv E permitTtlMs (ops ++ [.actionExecute payload verified])
      (d.actionExecute E ops.length payload verified).2 := by
  unfold DaemonState.actionExecute
  split
  · exact h.append _
  next deadline hdeadline =>
  split
  · exact h.append _
  split
  · exact h.append _
  split
  · exact h.append _
  obtain rfl : payload.deadlineMs = deadline := by
    unfold checkedDeadline at hdeadline
    split at hdeadline
    · exact Option.some.inj hdeadline
    · cases hdeadline
  refine ⟨(h.append _).answered, h.backed, fun r hr => ?_, (h.append _).dispatched⟩
  rcases List.mem_append.mp hr with hold | hnew
  · exact (h.threads r hold).mono (fun _ => id) _
  · obtain rfl := List.mem_singleton.mp hnew
    exact ⟨⟨ops.length, ⟨verified, List.getElem?_concat_length⟩, rfl⟩, nofun⟩

theorem ExpiryInv.prepare (hclock : Monotone E.nowMs) (h : ExpiryInv E permitTtlMs ops d)
    (thread : ℕ) : ExpiryInv E permitTtlMs ops (d.prepare E ops.length thread) := by
  unfold DaemonState.prepare
  split
  · exact h
  next request hrequest =>
  have hlive := h.threads request (List.mem_of_getElem? hrequest)
  have hfailed : ∀ error, ThreadLive E ops d.answers { request with stage := .failed error } :=
    fun error => ⟨hlive.arrived, nofun⟩
  split
  · next c hstage hc =>
    have hbacked := h.backed _ c hc
    split
    · exact h.setThread (hfailed _)
    split
    · exact h.setThread (hfailed _)
    have hafter := hbacked.prepareDesktopActionRequest (n := ops.length) request.payload
    split
    · next c' heq =>
      rw [heq] at hafter
      have hprepared : ThreadLive E ops d.answers { request with stage := .prepared } := by
        refine ⟨hlive.arrived, fun _ => ?_⟩
        obtain ⟨entry, hentry, hnow⟩ := entry_of_prepare (congrArg Prod.fst heq)
        obtain ⟨a, ha, htoken, hexpires⟩ := hbacked.entries _ entry hentry
        obtain ⟨i, hi, hdeadline⟩ := hlive.arrived
        obtain ⟨verified, hop⟩ := hi
        have harrival : E.nowMs i ≤ E.nowMs ops.length :=
          hclock (List.getElem?_eq_some_iff.mp hop).1.le
        refine ⟨a, ha, htoken, ?_⟩
        dsimp only
        omega
      exact (h.setThread hprepared).setCompanion hafter _
    · next error c' heq =>
      rw [heq] at hafter
      exact (h.setThread (hfailed _)).setCompanion hafter _
  · exact h

theorem ExpiryInv.dispatch (h : ExpiryInv E permitTtlMs ops d) (thread : ℕ) :
    ExpiryInv E permitTtlMs ops (d.dispatch E ops.length thread) := by
  unfold DaemonState.dispatch
  split
  · exact h
  next request hrequest =>
  have hlive := h.threads request (List.mem_of_getElem? hrequest)
  split
  · next hstage =>
    have hother : ∀ stage, stage ≠ .prepared →
        ThreadLive E ops d.answers { request with stage } :=
      fun stage hne => ⟨hlive.arrived, fun heq => absurd heq hne⟩
    split
    · exact h.setThread (hother _ nofun)
    split
    · exact h.setThread (hother _ nofun)
    next hnow =>
    have hset : ExpiryInv E permitTtlMs ops (d.setThread thread _ .dispatched) :=
      h.setThread (hother .dispatched nofun)
    refine ⟨hset.answered, hset.backed, hset.threads, fun w hw => ?_⟩
    rcases List.mem_append.mp hw with hold | hnew
    · exact h.dispatched w hold
    · obtain rfl := List.mem_singleton.mp hnew
      obtain ⟨a, ha, htoken, hdeadline⟩ := hlive.prepared hstage
      obtain ⟨i, hi, -⟩ := hlive.arrived
      refine ⟨⟨i, hi⟩, a, ha, htoken, ?_⟩
      dsimp only
      omega
  · exact h

/-- What one operation keeps. -/
theorem ExpiryInv.perform (hdigest : Function.Injective E.sha256Hex) (hclock : Monotone E.nowMs)
    (h : ExpiryInv E permitTtlMs ops d) (op : DaemonOp) :
    ExpiryInv E permitTtlMs (ops ++ [op])
      (d.perform E A approver permitTtlMs ops.length op).2 := by
  cases op with
  | appLaunch sessionId =>
    have hc := backed_companionFor approver h sessionId ""
    have hset := (h.setCompanion hc sessionId).append (.appLaunch sessionId)
    exact ⟨hset.answered, hset.backed, hset.threads, hset.dispatched⟩
  | appShutdown sessionId =>
    have happ := h.append (.appShutdown sessionId)
    exact ⟨happ.answered, happ.backed, happ.threads, happ.dispatched⟩
  | sessionPause =>
    exact (h.mapCompanions (f := .pause) fun c hc => ⟨hc.ttl, hc.entries⟩).append _
  | sessionResume =>
    exact (h.mapCompanions (f := .resume) fun c hc => ⟨hc.ttl, hc.entries⟩).append _
  | sessionStop =>
    have hmap := (h.mapCompanions fun c hc => hc.emergencyStop).append .sessionStop
    exact ⟨hmap.answered, hmap.backed, hmap.threads, hmap.dispatched⟩
  | sessionClose =>
    have hmap := (h.mapCompanions fun c hc => hc.emergencyStop).append .sessionClose
    exact ⟨hmap.answered, hmap.backed, hmap.threads, hmap.dispatched⟩
  | permitRequest request => exact h.permitRequest hdigest request
  | actionExecute payload verified => exact h.actionExecute payload verified
  | prepare thread => exact (h.prepare hclock thread).append _
  | dispatch thread => exact (h.dispatch thread).append _

/-! ## Runs -/

theorem after_append (op : DaemonOp) :
    DaemonState.after E A approver permitTtlMs (ops ++ [op]) =
      ((DaemonState.after E A approver permitTtlMs ops).perform E A approver permitTtlMs
        ops.length op).2 := by
  have hcount : ∀ (ops : List DaemonOp) (s : ℕ × DaemonState α),
      (ops.foldl (fun (s : ℕ × DaemonState α) op =>
        (s.1 + 1, (s.2.perform E A approver permitTtlMs s.1 op).2)) s).1 = s.1 + ops.length := by
    intro ops
    induction ops with
    | nil => exact fun s => rfl
    | cons op ops ih =>
      intro s
      rw [List.foldl_cons, ih, List.length_cons]
      dsimp only
      omega
  unfold DaemonState.after
  rw [List.foldl_append, List.foldl_cons, List.foldl_nil, hcount, Nat.zero_add]

theorem expiryInv_start : ExpiryInv E permitTtlMs [] (DaemonState.start : DaemonState α) := by
  refine ⟨fun a ha => absurd ha List.not_mem_nil, fun id c hc => ?_,
    fun r hr => absurd hr List.not_mem_nil, fun w hw => absurd hw List.not_mem_nil⟩
  cases hc

theorem expiryInv_after (hdigest : Function.Injective E.sha256Hex) (hclock : Monotone E.nowMs)
    (ops : List DaemonOp) :
    ExpiryInv E permitTtlMs ops (DaemonState.after E A approver permitTtlMs ops) := by
  induction ops using List.reverseRecOn with
  | nil => exact expiryInv_start
  | append_singleton ops op ih =>
    rw [after_append]
    exact ih.perform hdigest hclock op

/-- The authorization of a permit request leaves time for the permit to expire, and for an action
that has consumed the permit to be written before the deadline of its request. -/
def LeavesTime (E : Environment) (permitTtlMs : ℕ) (ops : List DaemonOp) : Prop :=
  ∀ i request j payload, ops[i]? = some (.permitRequest request) → Arrived ops j payload →
    payload.permit.permitToken = E.token i →
    ∀ expiresAt ∈ parseInstant request.authorization.expiresAt,
      ((E.nowMs i + permitTtlMs + payload.deadlineMs : ℕ) : Int) ≤ expiresAt + 1

def sampleAction : ResolvedDesktopAction := ⟨.click, "a", "g", "n", .uia, some "Invoke"⟩

def sampleDigestText (expiresAt : String) : List Char :=
  desktopActionDigestText "s" "r" sampleAction "d" "p" .normal expiresAt "bg==" none

/-- The clock shows two seconds from the third operation on. -/
def daemonEnvironment : Environment where
  token := sampleTokens 1
  nonceBase64 := sampleEnvironment.nonceBase64
  nowMs n := if n < 2 then 0 else 2000
  sha256Hex := Protocol.digestOf
    [(sampleToken.toList, "51643eac9777b63a7b268174d1fd4276daedec9bc9ea0bc6e5abf69047bc54f6"),
      (sampleDigestText "1970-01-01T00:00:01.000Z",
        "5ccfa3aa75420ec7aa3443c417ae5874806ff9c0493b3b7a6e55f4cd35919f5a"),
      (sampleDigestText "1970-01-01T00:00:31.000Z",
        "8a56c5393b6b9d5b49adf6fbe30dd1cee4d7b617e268d3a2767630bc052dbabc")]

def daemonDigest (expiresAt : String) : String :=
  daemonEnvironment.sha256Hex (Protocol.utf8Encode (sampleDigestText expiresAt))

/-- A permit is requested under an authorization with the expiry, and used two seconds later. -/
def daemonRun (expiresAt : String) : List DaemonOp :=
  let digest := daemonDigest expiresAt
  [.appLaunch "s",
    .permitRequest ⟨"q", "s", "r", sampleAction,
      ⟨"d", "p", digest, .normal, expiresAt, "bg==", none⟩, "click", expiresAt⟩,
    .actionExecute ⟨"s", sampleAction, ⟨sampleToken, "bg==", "s", "r", "a", digest, "g", "d", "p",
      .normal, "1970-01-01T00:00:00.000Z", expiresAt, none⟩, none, 1000⟩ true,
    .prepare 0, .dispatch 0]

def sampleDaemon (expiresAt : String) : DaemonState Unit :=
  .after daemonEnvironment sampleApprover () 30000 (daemonRun expiresAt)

theorem daemonEnvironment_sha256Hex : Function.Injective daemonEnvironment.sha256Hex :=
  Protocol.digestOf_injective (by decide) (by decide)

theorem daemonEnvironment_nowMs : Monotone daemonEnvironment.nowMs := by
  intro m n hmn
  simp only [daemonEnvironment]
  split <;> split <;> omega

theorem halfMinute_leaves_time :
    LeavesTime daemonEnvironment 30000 (daemonRun "1970-01-01T00:00:31.000Z") := by
  rintro i request j payload hi ⟨verified, hj⟩ -
  match i, hi with
  | 0, hi => cases hi
  | 2, hi => cases hi
  | 3, hi => cases hi
  | 4, hi => cases hi
  | _ + 5, hi => cases hi
  | 1, hi =>
    cases hi
    match j, hj with
    | 0, hj => cases hj
    | 1, hj => cases hj
    | 3, hj => cases hj
    | 4, hj => cases hj
    | _ + 5, hj => cases hj
    | 2, hj =>
      cases hj
      decide

end Qualigence.Desktop
