import Qualigence.Gateway.Model

/-! # The tokens of an invocation

Every way in which an invocation ends says what its attempts took, but for three: the output
contract may fail to give its schema for a later attempt, a delay may fail by itself, and the signal
may be found aborted after the result was made. Each of them ends the invocation with an error that
says that the provider was not attempted.
-/

namespace Qualigence.Gateway

open Foundation Program

variable {N R T : Type}

abbrev GatewayLog (N R T : Type) := List (Call (gatewaySignature N R T) Empty)

/-- What an attempt of the provider reported of its usage. -/
def reportedUsage : Call (gatewaySignature N R T) Empty → Option (Option (ModelUsage N))
  | ⟨.invoke _, .ok (.settled response)⟩ => some response.usage
  | ⟨.invoke _, .ok (.failed (.providerError _ _ usage))⟩ => some usage
  | ⟨.invoke _, .ok (.failed .other)⟩ => some none
  | ⟨.invoke _, .ok (.aborted _)⟩ => some none
  | _ => none

/-- The attempts of the provider, with what they reported. -/
def attempts (log : GatewayLog N R T) : List (Option (ModelUsage N)) :=
  log.filterMap reportedUsage

/-- An answer that ends the invocation with an error that does not know of the attempts. -/
def Loses : Call (gatewaySignature N R T) Empty → Prop
  | ⟨.jsonSchema, .ok (.error _)⟩ => True
  | ⟨.delay _, .ok (.failed _)⟩ => True
  | ⟨.throwIfAborted, .ok (some _)⟩ => True
  | _ => False

def Lossless (log : GatewayLog N R T) : Prop := ∀ c ∈ log, ¬ Loses c

/-- The usage that a state says is complete. -/
def availableUsage : ModelUsageState N → Option (ModelUsage N)
  | .available usage => some usage
  | .unavailable _ => none

/-- A result carries the usage of the attempts, an error says so and that there were some. -/
def StatesUsage (num : Numbers N) (reports : List (Option (ModelUsage N))) :
    Except (GatewayError N R) (ValidatedModelResult N T) → Prop
  | .ok result => result.usageState = some (statedUsage num reports) ∧
      result.usage = availableUsage (statedUsage num reports)
  | .error e => e.providerAttempted = true ∧ e.usageState = statedUsage num reports

/-! ## What is said of the accumulated usage -/

section Errors

variable (num : Numbers N) (reports : List (Option (ModelUsage N)))

theorem states_abortError (reason : R) : StatesUsage (T := T) num reports (.error
    (abortError reason (accumulated num reports) !(accumulated num reports).available)) := by
  refine ⟨rfl, ?_⟩
  rw [← accumulatedUsageState_accumulated]
  simp [abortError, GatewayError.usageState]

/-- The attempt that lost against the signal reported nothing. -/
theorem states_abortError_pending (reason : R) : StatesUsage (T := T) num (reports ++ [none])
    (.error (abortError reason (accumulated num reports) true)) := by
  refine ⟨rfl, ?_⟩
  rw [← accumulatedUsageState_accumulated, accumulated_concat]
  rfl

theorem states_gateway (code : ModelGatewayErrorCode) (message : String) :
    StatesUsage (R := R) (T := T) num reports (.error (.gateway code message
      (knownUsage (accumulated num reports)) true !(accumulated num reports).available)) := by
  refine ⟨rfl, ?_⟩
  rw [← accumulatedUsageState_accumulated]
  unfold accumulatedUsageState GatewayError.usageState usageState
  cases knownUsage (accumulated num reports) with
  | none => rfl
  | some usage => cases (accumulated num reports).available <;> rfl

theorem states_invocation (reason : R) : StatesUsage (T := T) num reports
    (.error (.invocation reason (accumulatedUsageState (accumulated num reports)) true)) :=
  ⟨rfl, accumulatedUsageState_accumulated num reports⟩

/-- Available usage is known. -/
theorem known_of_available (h : (accumulated num reports).available = true)
    (hne : reports ≠ []) : (accumulated num reports).known = true := by
  rw [accumulated_available, decide_eq_true_eq] at h
  rw [accumulated_known]
  cases ht : validTotals num reports with
  | cons => rfl
  | nil =>
    obtain ⟨report, hr⟩ := List.exists_mem_of_ne_nil reports hne
    have hsome := h report hr
    rw [List.filterMap_eq_nil_iff.mp ht report hr] at hsome
    cases hsome

theorem completeUsage_accumulated (hne : reports ≠ []) :
    completeUsage (accumulated num reports) = availableUsage (statedUsage num reports) := by
  rw [← accumulatedUsageState_accumulated]
  unfold completeUsage accumulatedUsageState knownUsage
  cases ha : (accumulated num reports).available with
  | false =>
    cases (accumulated num reports).known <;> cases (accumulated num reports).usage <;> rfl
  | true =>
    rw [known_of_available num reports ha hne]
    cases (accumulated num reports).usage <;> rfl

end Errors

/-! ## The log -/

@[simp] theorem attempts_append (log log' : GatewayLog N R T) :
    attempts (log ++ log') = attempts log ++ attempts log' := List.filterMap_append

theorem lossless_concat {log : GatewayLog N R T} {c : Call (gatewaySignature N R T) Empty} :
    Lossless (log ++ [c]) ↔ Lossless log ∧ ¬ Loses c := by
  unfold Lossless
  rw [List.forall_mem_append, List.forall_mem_singleton]

theorem attempts_quiet {log : GatewayLog N R T} {c : Call (gatewaySignature N R T) Empty}
    (hr : reportedUsage c = none) : attempts (log ++ [c]) = attempts log := by
  have hc : attempts [c] = [] := List.filterMap_cons_none hr
  rw [attempts_append, hc, List.append_nil]

/-- A log that may go on: no usage was lost, and a number of attempts was made. -/
structure Going (reports : List (Option (ModelUsage N))) (log : GatewayLog N R T) : Prop where
  attempts_eq : attempts log = reports
  lossless : Lossless log

namespace Going

variable {reports : List (Option (ModelUsage N))} {log : GatewayLog N R T}
  {c : Call (gatewaySignature N R T) Empty}

/-- A call that neither reports nor loses usage. -/
theorem quiet (h : Going reports log) (hr : reportedUsage c = none) (hl : ¬ Loses c) :
    Going reports (log ++ [c]) where
  attempts_eq := (attempts_quiet hr).trans h.attempts_eq
  lossless := lossless_concat.mpr ⟨h.lossless, hl⟩

theorem reporting (h : Going reports log) (report : Option (ModelUsage N))
    (hr : reportedUsage c = some report) (hl : ¬ Loses c) :
    Going (reports ++ [report]) (log ++ [c]) where
  attempts_eq := by
    rw [attempts_append, h.attempts_eq, attempts, List.filterMap_cons_some hr]
    rfl
  lossless := lossless_concat.mpr ⟨h.lossless, hl⟩

end Going

/-- What follows a log neither reports nor loses usage. -/
structure Quietly (log log' : GatewayLog N R T) : Prop where
  attempts_eq : attempts log' = attempts log
  lossless_iff : Lossless log' ↔ Lossless log

theorem Quietly.refl (log : GatewayLog N R T) : Quietly log log := ⟨rfl, Iff.rfl⟩

theorem Quietly.snoc {log log' : GatewayLog N R T} {c : Call (gatewaySignature N R T) Empty}
    (h : Quietly log log') (hr : reportedUsage c = none) (hl : ¬ Loses c) :
    Quietly log (log' ++ [c]) where
  attempts_eq := (attempts_quiet hr).trans h.attempts_eq
  lossless_iff := by
    rw [lossless_concat, h.lossless_iff]
    exact and_iff_left hl

theorem Going.later {reports : List (Option (ModelUsage N))} {log log' : GatewayLog N R T}
    (h : Going reports log) (hq : Quietly log log') : Going reports log' where
  attempts_eq := hq.attempts_eq.trans h.attempts_eq
  lossless := hq.lossless_iff.mpr h.lossless

/-- How the loop ends: after at most three attempts, with the usage of all of them, unless it is
lost. -/
def LoopEnds (num : Numbers N) (log : GatewayLog N R T) :
    Except (Thrown N R) (ValidatedModelResult N T) → Prop
  | .ok result => ∃ reports, Going reports log ∧ reports ≠ [] ∧ reports.length ≤ 3 ∧
      StatesUsage (R := R) num reports (.ok result)
  | .error (.own e) => ∃ reports, Going reports log ∧ reports.length ≤ 3 ∧
      (reports ≠ [] → StatesUsage (T := T) num reports (.error e))
  | .error (.raw _) => (attempts log).length ≤ 3 ∧ (attempts log ≠ [] → ¬ Lossless log)

/-- The variables at the start of a round. -/
structure Round (num : Numbers N) (s : LoopState N) (reports : List (Option (ModelUsage N))) :
    Prop where
  acc : s.acc = accumulated num reports
  attempted : s.providerAttempts = reports.length
  retried : s.schemaAttempts + s.transientAttempts = reports.length
  schema : s.schemaAttempts ≤ 1
  transient : s.transientAttempts ≤ 1

section Loop

variable {g : Setting N} {log : GatewayLog N R T} {s : LoopState N}
  {reports : List (Option (ModelUsage N))}

/-- The usage is stated by an error of the loop. -/
theorem yields_fail {e : GatewayError N R} (h : Going reports log) (hl : reports.length ≤ 3)
    (he : reports ≠ [] → StatesUsage (T := T) g.num reports (.error e)) :
    Yields (LoopEnds g.num) log (fail e : Invoking N R T _) := ⟨reports, h, hl, he⟩

/-- A reason is thrown as it came before the first attempt, or usage is lost. -/
theorem yields_failRaw {reason : R} (hl : (attempts log).length ≤ 3)
    (h : attempts log ≠ [] → ¬ Lossless log) :
    Yields (LoopEnds g.num) log (failRaw reason : Invoking N R T _) := ⟨hl, h⟩

theorem yields_deliver (h : Going reports log) (hne : reports ≠ []) (hl : reports.length ≤ 3)
    (hacc : s.acc = accumulated g.num reports) (response : ModelProviderResponse N) (value : T) :
    Yields (LoopEnds g.num) log (deliver s response value : Invoking N R T _) := by
  refine yields_step fun signal => ?_
  have hq := h.quiet (c := ⟨.aborted, .ok signal⟩) rfl id
  cases signal with
  | some reason =>
    rw [hacc]
    exact yields_fail hq hl fun _ => states_abortError g.num reports reason
  | none =>
    refine ⟨reports, hq, hne, hl, ?_, ?_⟩
    · rw [hacc, accumulatedUsageState_accumulated]
    · rw [hacc, completeUsage_accumulated g.num reports hne]

theorem Round.start (request : StructuredModelRequest) :
    Round g.num (.start g request) [] where
  acc := rfl
  attempted := rfl
  retried := rfl
  schema := Nat.zero_le 1
  transient := Nat.zero_le 1

theorem Round.length_le (hs : Round g.num s reports) (report : Option (ModelUsage N)) :
    (reports ++ [report]).length ≤ 3 := by
  have hr := hs.retried
  have hschema := hs.schema
  have htransient := hs.transient
  rw [List.length_append, List.length_singleton]
  omega

theorem concat_ne_nil (report : Option (ModelUsage N)) : reports ++ [report] ≠ [] :=
  List.append_ne_nil_of_right_ne_nil _ (List.cons_ne_nil _ _)

theorem Round.acc_concat (hs : Round g.num s reports) (report : Option (ModelUsage N)) :
    accumulateUsage g.num s.acc report = accumulated g.num (reports ++ [report]) := by
  rw [hs.acc, accumulated_concat]

/-- The round after a transient failure. -/
theorem Round.transientRetry (hs : Round g.num s reports) (ht : s.transientAttempts < 1)
    (report : Option (ModelUsage N)) :
    Round g.num
      { s with
        providerAttempts := s.providerAttempts + 1
        acc := accumulateUsage g.num s.acc report
        transientAttempts := s.transientAttempts + 1 } (reports ++ [report]) where
  acc := hs.acc_concat report
  attempted := by rw [List.length_append, ← hs.attempted]; rfl
  retried := by
    rw [List.length_append, ← hs.retried]
    exact (Nat.add_assoc _ _ _).symm
  schema := hs.schema
  transient := ht

/-- The round after an output that does not match the schema. -/
theorem Round.schemaRetry (hs : Round g.num s reports) (ht : s.schemaAttempts < 1)
    (report : Option (ModelUsage N)) (request : StructuredModelRequest) :
    Round g.num
      { s with
        providerAttempts := s.providerAttempts + 1
        acc := accumulateUsage g.num s.acc report
        schemaAttempts := s.schemaAttempts + 1
        providerRequest := request } (reports ++ [report]) where
  acc := hs.acc_concat report
  attempted := by rw [List.length_append, ← hs.attempted]; rfl
  retried := by
    rw [List.length_append, ← hs.retried]
    exact Nat.add_right_comm _ _ _
  schema := ht
  transient := hs.transient

/-- Every round either ends the loop or goes into the next one with what it reported. -/
theorem yields_attemptLoop {s : LoopState N} {log : GatewayLog N R T}
    {reports : List (Option (ModelUsage N))} (hs : Round g.num s reports)
    (h : Going reports log) :
    Yields (LoopEnds g.num) log (attemptLoop g s : Invoking N R T _) := by
  have hfew (report : Option (ModelUsage N)) := hs.length_le report
  have hlength : reports.length ≤ 3 := by
    have := hfew none
    rw [List.length_append] at this
    omega
  rw [attemptLoop]
  refine yields_step fun signal => ?_
  have h₁ := h.quiet (c := ⟨.aborted, .ok signal⟩) rfl id
  cases signal with
  | some reason =>
    dsimp only
    split
    · rename_i h0
      have hnil : reports = [] := List.length_eq_zero_iff.mp (hs.attempted ▸ h0)
      exact yields_failRaw (by rw [h₁.attempts_eq, hnil]; exact Nat.zero_le 3)
        fun hne => absurd (h₁.attempts_eq.trans hnil) hne
    · rw [hs.acc]
      exact yields_fail h₁ hlength fun _ => states_abortError g.num reports reason
  | none =>
    refine yields_step fun schema => ?_
    cases schema with
    | error reason =>
      -- the schema of a later attempt fails
      refine yields_failRaw ?_ fun _ hlossless => (lossless_concat.mp hlossless).2 trivial
      rwa [attempts_quiet rfl, h₁.attempts_eq]
    | ok responseSchema =>
      have h₂ := h₁.quiet (c := ⟨.jsonSchema, .ok (.ok responseSchema)⟩) rfl id
      refine yields_step fun answer => ?_
      cases answer with
      | aborted reason =>
        have h₃ := h₂.reporting none
          (c := ⟨.invoke ⟨s.providerRequest, responseSchema⟩, .ok (.aborted reason)⟩) rfl id
        dsimp only
        rw [hs.acc]
        exact yields_fail h₃ (hfew none) fun _ => states_abortError_pending g.num reports reason
      | failed failure =>
        have h₃ := h₂.reporting (normalizeProviderError failure).usage
          (c := ⟨.invoke ⟨s.providerRequest, responseSchema⟩, .ok (.failed failure)⟩)
          (by cases failure <;> rfl) id
        have hfew := hfew (normalizeProviderError failure).usage
        refine yields_step fun signal => ?_
        have h₄ := h₃.quiet (c := ⟨.aborted, .ok signal⟩) rfl id
        cases signal with
        | some reason =>
          dsimp only
          rw [hs.acc_concat]
          exact yields_fail h₄ (hfew) fun _ => states_abortError g.num _ reason
        | none =>
          dsimp only
          split
          · rename_i hretry
            refine yields_step fun delayed => ?_
            cases delayed with
            | aborted reason =>
              dsimp only
              rw [hs.acc_concat]
              exact yields_fail (h₄.quiet rfl id) (hfew)
                fun _ => states_abortError g.num _ reason
            | failed reason =>
              -- the delay fails by itself
              refine yields_failRaw ?_ fun _ hlossless => (lossless_concat.mp hlossless).2 trivial
              rw [attempts_quiet rfl, h₄.attempts_eq]
              exact hfew
            | settled u =>
              exact yields_attemptLoop (hs.transientRetry hretry.2 _) (h₄.quiet rfl id)
          · rw [hs.acc_concat]
            exact yields_fail h₄ (hfew) fun _ => states_gateway g.num _ _ _
      | settled response =>
        have h₃ := h₂.reporting response.usage
          (c := ⟨.invoke ⟨s.providerRequest, responseSchema⟩, .ok (.settled response)⟩) rfl id
        refine yields_step fun signal => ?_
        have h₄ := h₃.quiet (c := ⟨.aborted, .ok signal⟩) rfl id
        cases signal with
        | some reason =>
          dsimp only
          rw [hs.acc_concat]
          exact yields_fail h₄ (hfew response.usage) fun _ => states_abortError g.num _ reason
        | none =>
          refine yields_step fun parsed => ?_
          cases parsed with
          | valid value =>
            exact yields_deliver (h₄.quiet rfl id) (concat_ne_nil response.usage)
              (hfew response.usage) (hs.acc_concat response.usage) response value
          | defect reason =>
            dsimp only
            rw [hs.acc_concat]
            exact yields_fail (h₄.quiet rfl id) (hfew response.usage)
              fun _ => states_invocation g.num _ reason
          | invalid issues =>
            dsimp only
            split
            · rename_i hretry
              exact yields_attemptLoop (hs.schemaRetry hretry response.usage
                (correctionRequest g s.providerRequest issues)) (h₄.quiet rfl id)
            · rw [hs.acc_concat]
              exact yields_fail (h₄.quiet rfl id) (hfew response.usage)
                fun _ => states_gateway g.num _ _ _
termination_by s.retries
decreasing_by all_goals simp only [LoopState.retries]; omega

theorem yields_runStructured (g : Setting N) (request : StructuredModelRequest) :
    Yields (LoopEnds g.num) [] (runStructured g request : Invoking N R T _) := by
  have hstart : Going [] ([] : GatewayLog N R T) := ⟨rfl, fun _ hc => absurd hc List.not_mem_nil⟩
  have hrefused (code : ModelGatewayErrorCode) (message : String) :
      Yields (LoopEnds g.num) [] (fail (.refused code message) : Invoking N R T _) :=
    yields_fail hstart (Nat.zero_le 3) fun hne => absurd rfl hne
  unfold runStructured
  split
  · exact hrefused _ _
  · split
    · exact hrefused _ _
    · split
      · exact hrefused _ _
      · exact yields_attemptLoop (Round.start request) hstart

theorem yields_runChecked (g : Setting N) (request : StructuredModelRequest) :
    Yields (LoopEnds g.num) [] (runChecked g request : Invoking N R T _) := by
  refine yields_bind (yields_runStructured g request) ?_
  intro log outcome h
  cases outcome with
  | error thrown => exact h
  | ok result =>
    obtain ⟨reports, hgoing, hne, hl, hstates⟩ := h
    refine yields_step fun signal => ?_
    cases signal with
    | some reason =>
      -- the signal was aborted after the result was made
      refine yields_failRaw ?_ fun _ hlossless => (lossless_concat.mp hlossless).2 trivial
      rwa [attempts_quiet rfl, hgoing.attempts_eq]
    | none =>
      exact ⟨reports, hgoing.quiet (c := ⟨.throwIfAborted, .ok none⟩) rfl id, hne, hl, hstates⟩

end Loop

/-! ## The invocation -/

section Invocation

variable {g : Setting N} {log : GatewayLog N R T} {reports : List (Option (ModelUsage N))}

/-- If the provider was called, what the invocation ends with states the usage of the calls. -/
def Accounts (num : Numbers N) (log : GatewayLog N R T)
    (outcome : Except (GatewayError N R) (ValidatedModelResult N T)) : Prop :=
  attempts log ≠ [] → StatesUsage num (attempts log) outcome

/-- There are at most three attempts, and their usage is stated exactly if it is not lost. -/
def Ends (num : Numbers N) (log : GatewayLog N R T)
    (outcome : Except (GatewayError N R) (ValidatedModelResult N T)) : Prop :=
  (attempts log).length ≤ 3 ∧
    (Accounts num log outcome ↔ (attempts log ≠ [] → Lossless log))

theorem Going.ends {num : Numbers N}
    {outcome : Except (GatewayError N R) (ValidatedModelResult N T)}
    (h : Going reports log) (hl : reports.length ≤ 3)
    (hs : reports ≠ [] → StatesUsage num reports outcome) : Ends num log outcome := by
  unfold Ends Accounts
  rw [h.attempts_eq]
  exact ⟨hl, fun _ _ => h.lossless, fun _ => hs⟩

/-- The report about an invocation is no attempt. -/
theorem yields_report (log : GatewayLog N R T) (request : StructuredModelRequest)
    (fields : ModelInvocationContext → ModelInvocationReport N) :
    Yields (fun log' _ => Quietly log log') log (report g request fields : Invoking N R T _) := by
  unfold report
  cases g.observed with
  | false => exact .refl log
  | true =>
    cases request.invocation with
    | none => exact .refl log
    | some context =>
      refine logs_perform fun reply => ?_
      cases reply with
      | ok reported =>
        exact (Quietly.refl log).snoc (c := ⟨.record (fields context), .ok reported⟩) rfl id
      | error e => exact e.elim

theorem yields_reportSuccess (h : Going reports log) (hl : reports.length ≤ 3)
    (request : StructuredModelRequest) {result : ValidatedModelResult N T}
    (hs : StatesUsage (R := R) g.num reports (.ok result)) :
    Yields (Ends g.num) log (reportSuccess g request result : Invoking N R T _) := by
  refine yields_bind (yields_report log request _) ?_
  intro log' reported hq
  have hstate : result.usageState.getD (usageState result.usage result.usage.isNone) =
      statedUsage g.num reports := by
    rw [hs.1]
    rfl
  have herror (e : GatewayError N R) (ha : e.providerAttempted = true)
      (he : e.usageState = statedUsage g.num reports) :
      StatesUsage (T := T) g.num reports (.error e) := ⟨ha, he⟩
  cases reported with
  | settled u => exact (h.later hq).ends hl fun _ => hs
  | aborted reason => exact (h.later hq).ends hl fun _ => herror _ rfl hstate
  | failed reportError =>
    refine yields_step fun signal => ?_
    have h₁ := h.later (hq.snoc (c := ⟨.aborted, .ok signal⟩) rfl id)
    cases signal with
    | some reason => exact h₁.ends hl fun _ => herror _ rfl hstate
    | none => exact h₁.ends hl fun _ => herror _ rfl hstate

/-- The error may become an abort during the report, which states the same. -/
theorem yields_reportFailure (log : GatewayLog N R T) (request : StructuredModelRequest)
    (error : GatewayError N R) :
    Yields (fun log' (final : GatewayError N R) => Quietly log log' ∧
        final.providerAttempted = error.providerAttempted ∧ final.usageState = error.usageState)
      log (reportFailure g request error : Invoking N R T _) := by
  refine yields_bind (yields_report log request _) ?_
  intro log' reported hq
  cases reported with
  | settled u => exact ⟨hq, rfl, rfl⟩
  | aborted reason => exact ⟨hq, rfl, rfl⟩
  | failed reportError =>
    refine yields_step fun signal => ?_
    have h₁ := hq.snoc (c := ⟨.aborted, .ok signal⟩) rfl id
    cases signal with
    | some reason => exact ⟨h₁, rfl, rfl⟩
    | none => exact ⟨h₁, rfl, rfl⟩

/-- A reason that was thrown as it came becomes an error that knows of no attempt. -/
theorem yields_asInvocationError (log : GatewayLog N R T) (reason : R) :
    Yields (fun log' (error : GatewayError N R) => Quietly log log' ∧
        error.providerAttempted = false) log
      (asInvocationError (.raw reason) : Invoking N R T _) := by
  refine yields_step fun signal => ?_
  have h₁ := (Quietly.refl log).snoc (c := ⟨.aborted, .ok signal⟩) rfl id
  cases signal with
  | some abortReason => exact ⟨h₁, rfl⟩
  | none => exact ⟨h₁, rfl⟩

theorem yields_invokeStructured (g : Setting N) (request : StructuredModelRequest) :
    Yields (Ends g.num) [] (invokeStructured g request : Invoking N R T _) := by
  refine yields_bind (yields_runChecked g request) ?_
  intro log outcome h
  cases outcome with
  | ok result =>
    obtain ⟨reports, hgoing, -, hl, hs⟩ := h
    exact yields_reportSuccess hgoing hl request hs
  | error thrown =>
    cases thrown with
    | own e =>
      obtain ⟨reports, hgoing, hl, hs⟩ := h
      refine yields_bind (M := fun log' error => log' = log ∧ error = e) ⟨rfl, rfl⟩ ?_
      rintro _ _ ⟨rfl, rfl⟩
      refine yields_bind (yields_reportFailure _ request _) ?_
      rintro log' final ⟨hq, ha, hu⟩
      exact (hgoing.later hq).ends hl fun hne => ⟨ha.trans (hs hne).1, hu.trans (hs hne).2⟩
    | raw reason =>
      obtain ⟨hl, hlost⟩ := h
      refine yields_bind (yields_asInvocationError log reason) ?_
      rintro log₁ error ⟨hq₁, hnot⟩
      refine yields_bind (yields_reportFailure log₁ request error) ?_
      rintro log₂ final ⟨hq₂, ha, -⟩
      have hattempts : attempts log₂ = attempts log := hq₂.attempts_eq.trans hq₁.attempts_eq
      have hlossless : Lossless log₂ ↔ Lossless log := hq₂.lossless_iff.trans hq₁.lossless_iff
      refine ⟨hattempts ▸ hl, fun hstates hne => ?_, fun hkept hne => ?_⟩
      · have hfalse := (hstates hne).1
        rw [ha, hnot] at hfalse
        cases hfalse
      · exact absurd (hlossless.mp (hkept hne)) (hlost (hattempts ▸ hne))

/-- The provider is called three times at most, and an invocation that called it ends with the usage
of all calls exactly if no schema failed after the first call, no delay failed by itself and the
signal was not aborted behind the result. -/
theorem usage_stated_iff (g : Setting N) (request : StructuredModelRequest)
    (oracle : Oracle (gatewaySignature N R T) Empty) :
    let log := calls oracle (invokeStructured g request)
    let outcome := value (outcome oracle (invokeStructured g request))
    (attempts log).length ≤ 3 ∧
      ((attempts log ≠ [] → StatesUsage g.num (attempts log) outcome) ↔
        (attempts log ≠ [] → ∀ c ∈ log, ¬ Loses c)) :=
  (yields_invokeStructured g request).run oracle

end Invocation

/-! ## A delay that fails -/

/-- Numbers that are counts. -/
def countNumbers : Numbers ℕ where
  zero := 0
  add := (· + ·)
  isSafeInteger n := n ≤ 9007199254740991
  isNonNegative _ := true

def sampleSetting : Setting ℕ where
  num := countNumbers
  structuredOutput := true
  visionInput := false
  observed := false
  contractName := "decision"
  imageDigest := id

def sampleRequest : StructuredModelRequest where
  operation := .executionDecision
  model := "m"
  messages := [⟨.user, "next?", []⟩]
  timeoutMs := 1000
  maximumOutputTokens := none
  invocation := none
  dataPolicy := none

/-- The provider is busy after seven tokens, and the delay rejects. -/
def failingDelay : Oracle (gatewaySignature ℕ String Unit) Empty
  | _, .aborted => .ok none
  | _, .throwIfAborted => .ok none
  | _, .jsonSchema => .ok (.ok .null)
  | _, .invoke _ => .ok (.failed (.providerError .rateLimited "busy" (some ⟨none, none, some 7⟩)))
  | _, .delay _ => .ok (.failed "timer")
  | _, .parse _ => .ok (.valid ())
  | _, .record _ => .ok (.settled ())

theorem failed_delay_loses_usage :
    attempts (calls failingDelay (invokeStructured sampleSetting sampleRequest)) =
        [some ⟨none, none, some 7⟩] ∧
    value (outcome failingDelay (invokeStructured sampleSetting sampleRequest)) =
        .error (.invocation "timer" (.unavailable none) false) ∧
    ¬ StatesUsage countNumbers
        (attempts (calls failingDelay (invokeStructured sampleSetting sampleRequest)))
        (value (outcome failingDelay (invokeStructured sampleSetting sampleRequest))) := by
  have hrun : attempts (calls failingDelay (invokeStructured sampleSetting sampleRequest)) =
        [some ⟨none, none, some 7⟩] ∧
      value (outcome failingDelay (invokeStructured sampleSetting sampleRequest)) =
        .error (.invocation "timer" (.unavailable none) false) := by
    unfold invokeStructured runChecked runStructured
    rw [attemptLoop]
    exact ⟨rfl, rfl⟩
  refine ⟨hrun.1, hrun.2, ?_⟩
  rw [hrun.2]
  exact fun h => nomatch h.1

end Qualigence.Gateway
