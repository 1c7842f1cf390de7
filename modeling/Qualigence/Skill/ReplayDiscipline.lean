import Qualigence.Skill.Replay

/-! # The discipline of a replay

The calls of a replay fall into rounds, one for each step that is begun. A round looks at the
target, executes its step at most once on what it saw, and looks again to check it; the next round
starts only after a round that passed.
-/

namespace Qualigence.Skill.SkillReplayController

open Foundation Protocol Observation Program

abbrev ReplayCall := Call replaySignature ObservationThrown

def verifying (bundle : SignedSkillBundle) (scope : SkillVerificationScope)
    (reply : Except ObservationThrown SkillSignatureVerification) : ReplayCall :=
  ⟨.verify bundle scope, reply⟩

def execution (action : ResolvedReplayAction) (reply : Except ObservationThrown Unit) :
    ReplayCall :=
  ⟨.execute action, reply⟩

variable (L : ReplayLibrary)

/-- The action of a step on a graph that meets the preconditions of the step. A step with a target
acts on the only node that matches. -/
structure ReadyFor (step : SkillStep) (action : ResolvedReplayAction)
    (graph : ObservationGraphV1) : Prop where
  preconditions : assertionsHold L graph step.preconditions = .ok true
  step_eq : action.step = step
  node : match step.intent with
    | .navigate _ => action.node = none
    | .click target | .input target _ =>
      ∃ node, matching L target graph = [node] ∧ action.node = some node

/-- A graph that was captured, and is valid. -/
def Captured (c : ReplayCall) (graph : ObservationGraphV1) : Prop :=
  ∃ candidate, c = ⟨.capture, .ok candidate⟩ ∧
    validateReplayObservationGraph L candidate = .ok graph

/-- The target was looked at only, not acted on. -/
def CapturesOnly (log : ReplayLog) : Prop := ∀ c ∈ log, c.op = .capture

/-- The last graph that was captured meets the checkpoint of the step. -/
def Checked (step : SkillStep) (checks : ReplayLog) : Prop :=
  ∃ earlier c graph, checks = earlier ++ [c] ∧ Captured L c graph ∧
    assertionsHold L graph step.checkpoint = .ok true

/-- The calls of one step and its outcome. -/
inductive RoundOf (step : SkillStep) : ReplayLog → Except ObservationThrown SkillReplayResult → Prop
  | idle (round : ReplayLog) (r : Except ObservationThrown SkillReplayResult)
      (captures : CapturesOnly round) (stopped : r ≠ .ok .passed) : RoundOf step round r
  | executed (c : ReplayCall) (graph : ObservationGraphV1)
      (action : ResolvedReplayAction) (reply : Except ObservationThrown Unit) (checks : ReplayLog)
      (r : Except ObservationThrown SkillReplayResult) (captured : Captured L c graph)
      (ready : ReadyFor L step action graph) (captures : CapturesOnly checks)
      (checked : r = .ok .passed → Checked L step checks) :
      RoundOf step (c :: execution action reply :: checks) r

/-- The calls of several steps and their outcome. -/
inductive Replays : List SkillStep → ReplayLog → Except ObservationThrown SkillReplayResult → Prop
  | done : Replays [] [] (.ok .passed)
  | stopped (step : SkillStep) (steps : List SkillStep) (round : ReplayLog)
      (r : Except ObservationThrown SkillReplayResult) (hround : RoundOf L step round r)
      (hr : r ≠ .ok .passed) : Replays (step :: steps) round r
  | next (step : SkillStep) (steps : List SkillStep) (round log : ReplayLog)
      (r : Except ObservationThrown SkillReplayResult) (hround : RoundOf L step round (.ok .passed))
      (hrest : Replays steps log r) : Replays (step :: steps) (round ++ log) r

variable {L} {log : ReplayLog} {α β : Type}

/-! ## What each part calls -/

theorem Captured.op_eq {c : ReplayCall} {graph : ObservationGraphV1}
    (h : Captured L c graph) : c.op = .capture := by
  obtain ⟨candidate, rfl, -⟩ := h
  rfl

/-- One look at the target; a graph that comes of it was captured. -/
theorem logs_captureReplayGraph (log : ReplayLog) :
    Logs (fun log' r => ∃ c, log' = log ++ [c] ∧ c.op = .capture ∧
      ∀ graph, r = .ok graph → Captured L c graph) log (captureReplayGraph L) := by
  refine logs_step (fun e => ⟨_, rfl, rfl, nofun⟩) fun candidate => ?_
  unfold raised
  cases hgraph : validateReplayObservationGraph L candidate with
  | error e => exact ⟨_, rfl, rfl, nofun⟩
  | ok graph =>
    refine ⟨_, rfl, rfl, ?_⟩
    rintro _ ⟨⟩
    exact ⟨candidate, rfl, hgraph⟩

theorem logs_checkpointHolds (step : SkillStep) (log : ReplayLog) :
    Logs (fun log' r => ∃ c, log' = log ++ [c] ∧ c.op = .capture ∧
      (r = .ok true → Checked L step [c])) log (checkpointHolds L step) := by
  refine watched_bind _ (logs_captureReplayGraph log) ?_ ?_
  · rintro _ graph ⟨c, rfl, hop, hgraph⟩
    unfold raised
    cases holds : assertionsHold L graph step.checkpoint with
    | error e => exact ⟨c, rfl, hop, nofun⟩
    | ok b =>
      refine ⟨c, rfl, hop, ?_⟩
      rintro ⟨⟩
      exact ⟨[], c, graph, rfl, hgraph graph rfl, holds⟩
  · rintro _ e ⟨c, rfl, hop, -⟩
    exact ⟨c, rfl, hop, nofun⟩

theorem capturesOnly_singleton {c : ReplayCall} (h : c.op = .capture) :
    CapturesOnly [c] := by
  intro d hd
  rwa [List.mem_singleton.mp hd]

theorem CapturesOnly.append {checks checks' : ReplayLog} (h : CapturesOnly checks)
    (h' : CapturesOnly checks') : CapturesOnly (checks ++ checks') :=
  List.forall_mem_append.mpr ⟨h, h'⟩

theorem Checked.behind {step : SkillStep} {checks : ReplayLog} (h : Checked L step checks)
    (before : ReplayLog) : Checked L step (before ++ checks) := by
  obtain ⟨earlier, c, graph, rfl, hc, hholds⟩ := h
  exact ⟨before ++ earlier, c, graph, (List.append_assoc _ _ _).symm, hc, hholds⟩

/-- A checkpoint is checked once, or twice when the step may look again. -/
theorem logs_checkStep (step : SkillStep) (log : ReplayLog) :
    Logs (fun log' r => ∃ checks, log' = log ++ checks ∧ CapturesOnly checks ∧
      (r = .ok .passed → Checked L step checks)) log (checkStep L step) := by
  refine watched_bind _ (logs_checkpointHolds step log) ?_ ?_
  · rintro _ holds ⟨c, rfl, hop, hchecked⟩
    have hc := capturesOnly_singleton hop
    cases holds with
    | true => exact ⟨[c], rfl, hc, fun _ => hchecked rfl⟩
    | false =>
      dsimp only
      rw [if_neg Bool.false_ne_true]
      cases step.recovery with
      | stop => exact ⟨[c], rfl, hc, nofun⟩
      | reobserve =>
        -- the second look decides
        refine watched_bind _ (logs_checkpointHolds step (log ++ [c])) ?_ ?_
        · rintro _ recovered ⟨d, rfl, hop', hchecked'⟩
          have hd := capturesOnly_singleton hop'
          refine ⟨[c] ++ [d], List.append_assoc _ _ _, hc.append hd, ?_⟩
          intro hr
          cases recovered with
          | true => exact (hchecked' rfl).behind [c]
          | false => cases hr
        · rintro _ e ⟨d, rfl, hop', -⟩
          have hd := capturesOnly_singleton hop'
          exact ⟨[c] ++ [d], List.append_assoc _ _ _, hc.append hd, nofun⟩
  · rintro _ e ⟨c, rfl, hop, -⟩
    exact ⟨[c], rfl, capturesOnly_singleton hop, nofun⟩

/-- A step on the only node that there is. -/
def onlyNode (step : SkillStep) : List ObservationNodeV1 → Option ResolvedReplayAction
  | [node] => some ⟨step, some node⟩
  | _ => none

/-- A resolved action is the step's own, on the only node that its target matches. -/
theorem readyFor_of_resolveAction {step : SkillStep} {graph : ObservationGraphV1}
    {action : ResolvedReplayAction} (hpre : assertionsHold L graph step.preconditions = .ok true)
    (h : resolveAction L step graph = some action) : ReadyFor L step action graph := by
  unfold resolveAction at h
  have honly {target : SemanticTarget}
      (ht : onlyNode step (matching L target graph) = some action) :
      action.step = step ∧ ∃ node, matching L target graph = [node] ∧ action.node = some node := by
    unfold onlyNode at ht
    split at ht
    · next node hm =>
      cases ht
      exact ⟨rfl, node, hm, rfl⟩
    · cases ht
  cases hi : step.intent with
  | navigate path =>
    rw [hi] at h
    cases h
    exact ⟨hpre, rfl, by rw [hi]⟩
  | click target =>
    rw [hi] at h
    obtain ⟨hstep, hnode⟩ := honly h
    exact ⟨hpre, hstep, by rw [hi]; exact hnode⟩
  | input target valueRef =>
    rw [hi] at h
    obtain ⟨hstep, hnode⟩ := honly h
    exact ⟨hpre, hstep, by rw [hi]; exact hnode⟩

theorem logs_runStep (step : SkillStep) (log : ReplayLog) :
    Logs (fun log' r => ∃ round, log' = log ++ round ∧ RoundOf L step round r) log
      (runStep L step) := by
  refine watched_bind _ (logs_captureReplayGraph log) ?_ ?_
  · rintro _ graph ⟨c, rfl, hop, hgraph⟩
    have hidle (r : Except ObservationThrown SkillReplayResult) (hr : r ≠ .ok .passed) :
        ∃ round, log ++ [c] = log ++ round ∧ RoundOf L step round r :=
      ⟨[c], rfl, .idle [c] r (capturesOnly_singleton hop) hr⟩
    unfold raised
    cases hpre : assertionsHold L graph step.preconditions with
    | error e => exact hidle (.error e) nofun
    | ok ready =>
      cases ready with
      | false => exact hidle (.ok planDiverged) nofun
      | true =>
        dsimp only [bind_eq, pure_bind, if_true]
        cases hresolve : resolveAction L step graph with
        | none => exact hidle (.ok planDiverged) nofun
        | some action =>
          have hready := readyFor_of_resolveAction hpre hresolve
          refine logs_step (fun e => ?_) fun u => ?_
          · refine ⟨[c, execution action (.error e)], by rw [List.append_assoc]; rfl, ?_⟩
            exact .executed c graph action (.error e) [] _ (hgraph graph rfl) hready
              (fun _ hd => absurd hd List.not_mem_nil) nofun
          · refine Watched.mono ?_ (logs_checkStep step _)
            rintro _ r ⟨checks, rfl, hcaptures, hchecked⟩
            refine ⟨c :: execution action (.ok u) :: checks, ?_, ?_⟩
            · rw [List.append_assoc, List.append_assoc]
              rfl
            · exact .executed c graph action (.ok u) checks r (hgraph graph rfl) hready hcaptures
                hchecked
  · rintro _ e ⟨c, rfl, hop, -⟩
    exact ⟨[c], rfl, .idle [c] _ (capturesOnly_singleton hop) nofun⟩

theorem logs_runSteps (steps : List SkillStep) (log : ReplayLog) :
    Logs (fun log' r => ∃ rounds, log' = log ++ rounds ∧ Replays L steps rounds r) log
      (runSteps L steps) := by
  induction steps generalizing log with
  | nil => exact ⟨[], (List.append_nil log).symm, .done⟩
  | cons step steps ih =>
    refine watched_bind _ (logs_runStep step log) ?_ ?_
    · rintro _ result ⟨round, rfl, hround⟩
      cases result with
      | blocked errorCode => exact ⟨round, rfl, .stopped step steps round _ hround nofun⟩
      | passed =>
        refine Watched.mono ?_ (ih (log ++ round))
        rintro _ r ⟨rounds, rfl, hrest⟩
        exact ⟨round ++ rounds, List.append_assoc _ _ _,
          .next step steps round rounds r hround hrest⟩
    · rintro _ e ⟨round, rfl, hround⟩
      exact ⟨round, rfl, .stopped step steps round _ hround nofun⟩

/-! ## What follows for the whole replay -/

/-- The action that a call executes. -/
def executedAction : ReplayCall → Option ResolvedReplayAction
  | ⟨.execute action, _⟩ => some action
  | _ => none

def executions (log : ReplayLog) : List ResolvedReplayAction := log.filterMap executedAction

variable (L) in
/-- Every action is executed directly after a look at the target, on a graph that its step is ready
for. -/
def ActsOnFreshGraph (log : ReplayLog) : Prop :=
  ∀ before action reply after, log = before ++ execution action reply :: after →
    ∃ earlier c graph, before = earlier ++ [c] ∧ Captured L c graph ∧
      ReadyFor L action.step action graph

variable (L) in
/-- A step was executed on a graph that it was ready for, and its checkpoint held afterwards. -/
def PassedRound (step : SkillStep) (round : ReplayLog) : Prop :=
  ∃ c graph action reply checks, round = c :: execution action reply :: checks ∧
    Captured L c graph ∧ ReadyFor L step action graph ∧ CapturesOnly checks ∧ Checked L step checks

section Replays

variable {step : SkillStep} {steps : List SkillStep}
  {r : Except ObservationThrown SkillReplayResult}

theorem executedAction_of_capture {c : ReplayCall} (h : c.op = .capture) :
    executedAction c = none := by
  obtain ⟨op, reply⟩ := c
  cases h
  rfl

theorem executions_of_capturesOnly (h : CapturesOnly log) : executions log = [] :=
  List.filterMap_eq_nil_iff.mpr fun c hc => executedAction_of_capture (h c hc)

theorem RoundOf.executions_eq (h : RoundOf L step log r) :
    executions log = [] ∧ r ≠ .ok .passed ∨ (executions log).map (·.step) = [step] := by
  cases h with
  | idle _ _ captures stopped => exact .inl ⟨executions_of_capturesOnly captures, stopped⟩
  | executed c graph action reply checks _ captured ready captures checked =>
    right
    have hc := executedAction_of_capture captured.op_eq
    have haction : executedAction (execution action reply) = some action := rfl
    have hchecks : checks.filterMap executedAction = [] := executions_of_capturesOnly captures
    rw [executions, List.filterMap_cons_none hc, List.filterMap_cons_some haction, hchecks,
      List.map_singleton, ready.step_eq]

/-- The steps are executed once each and in order. -/
theorem Replays.executions_prefix (h : Replays L steps log r) :
    (executions log).map (·.step) <+: steps := by
  induction h with
  | done => exact List.prefix_rfl
  | stopped step steps round r hround hr =>
    rcases hround.executions_eq with ⟨hnone, -⟩ | hone
    · rw [hnone]
      exact List.nil_prefix
    · rw [hone]
      exact ⟨steps, rfl⟩
  | next step steps round log r hround hrest ih =>
    rcases hround.executions_eq with ⟨-, hr⟩ | hone
    · exact absurd rfl hr
    · rw [executions, List.filterMap_append, List.map_append]
      rw [executions] at hone
      rw [hone]
      exact (List.prefix_cons_inj step).mpr ih

theorem actsOnFreshGraph_of_none (h : executions log = []) : ActsOnFreshGraph L log := by
  rintro before action reply after rfl
  have he := List.filterMap_eq_nil_iff.mp h (execution action reply)
    (List.mem_append_right before List.mem_cons_self)
  cases he

theorem ActsOnFreshGraph.append {log' : ReplayLog} (h : ActsOnFreshGraph L log)
    (h' : ActsOnFreshGraph L log') : ActsOnFreshGraph L (log ++ log') := by
  intro before action reply after heq
  rcases List.append_eq_append_iff.mp heq with ⟨middle, hb, hl⟩ | ⟨middle, hb, hl⟩
  · obtain ⟨earlier, c, graph, hm, hrest⟩ := h' middle action reply after hl
    exact ⟨log ++ earlier, c, graph, by rw [hb, hm, List.append_assoc], hrest⟩
  · cases middle with
    | nil =>
      obtain ⟨earlier, c, graph, hm, hrest⟩ := h' [] action reply after hl.symm
      cases (List.append_ne_nil_of_right_ne_nil earlier (List.cons_ne_nil c [])) hm.symm
    | cons d rest =>
      obtain ⟨rfl, -⟩ := List.cons.inj hl
      exact h before action reply rest hb

theorem RoundOf.actsOnFreshGraph (h : RoundOf L step log r) : ActsOnFreshGraph L log := by
  cases h with
  | idle _ _ captures stopped =>
    exact actsOnFreshGraph_of_none (executions_of_capturesOnly captures)
  | executed c graph action reply checks _ captured ready captures checked =>
    have hchecks : ActsOnFreshGraph L checks :=
      actsOnFreshGraph_of_none (executions_of_capturesOnly captures)
    have hfirst : ActsOnFreshGraph L [c, execution action reply] := by
      intro before action' reply' after heq
      have hc := captured.op_eq
      match before, heq with
      | [], heq =>
        rw [(List.cons.inj heq).1] at hc
        cases hc
      | [d], heq =>
        obtain ⟨rfl, htail⟩ := List.cons.inj heq
        cases (List.cons.inj htail).1
        exact ⟨[], c, graph, rfl, captured, ready.step_eq ▸ ready⟩
      | d :: d' :: rest, heq =>
        have hl := congrArg List.length heq
        simp at hl
    exact hfirst.append hchecks

theorem Replays.actsOnFreshGraph (h : Replays L steps log r) : ActsOnFreshGraph L log := by
  induction h with
  | done => exact actsOnFreshGraph_of_none rfl
  | stopped step steps round r hround hr => exact hround.actsOnFreshGraph
  | next step steps round log r hround hrest ih => exact hround.actsOnFreshGraph.append ih

/-- A replay that passed has passed every step. -/
theorem Replays.passedRounds (h : Replays L steps log r) (hr : r = .ok .passed) :
    ∃ rounds, log = rounds.flatten ∧ List.Forall₂ (PassedRound L) steps rounds := by
  induction h with
  | done => exact ⟨[], rfl, .nil⟩
  | stopped step steps round r hround hstopped => exact absurd hr hstopped
  | next step steps round log r hround hrest ih =>
    obtain ⟨rounds, rfl, hall⟩ := ih hr
    refine ⟨round :: rounds, rfl, .cons ?_ hall⟩
    cases hround with
    | idle _ _ captures stopped => exact absurd rfl stopped
    | executed c graph action reply checks _ captured ready captures checked =>
      exact ⟨c, graph, action, reply, checks, rfl, captured, ready, captures, checked rfl⟩

end Replays

/-- A replay verifies the signature, and goes on to the steps if it is valid only. -/
theorem logs_replay (bundle : SignedSkillBundle) (scope : SkillVerificationScope) :
    Logs (fun log r => (∃ reply, log = [verifying bundle scope reply] ∧ r ≠ .ok .passed) ∨
      ∃ rounds result, log = verifying bundle scope (.ok .valid) :: rounds ∧
        Replays L bundle.payload.steps.toList rounds result ∧
        (r = .ok .passed → result = .ok .passed)) [] (replay L bundle scope) := by
  refine logs_step (fun e => .inl ⟨_, rfl, nofun⟩) fun verification => ?_
  cases verification with
  | invalid code message => exact .inl ⟨_, rfl, nofun⟩
  | valid =>
    refine logs_tryCatch _ (logs_runSteps bundle.payload.steps.toList _) ?_ ?_
    · rintro _ result ⟨rounds, rfl, hrounds⟩
      exact .inr ⟨rounds, _, rfl, hrounds, id⟩
    · rintro _ e ⟨rounds, rfl, hrounds⟩
      cases e with
      | observation code => exact .inr ⟨rounds, _, rfl, hrounds, nofun⟩
      | other reason => exact .inr ⟨rounds, _, rfl, hrounds, nofun⟩

/-- The target is looked at or acted on. -/
def touchesTarget : ReplayOp → Prop
  | .verify .. => False
  | .capture | .execute _ => True

/-- Whatever the signer and the target answer, the target is touched behind a valid verification
only, the steps are executed at most once each and in order, each on a graph captured just before
that it is ready for, and a replay that passed has executed and checked every step. -/
theorem replay_discipline (L : ReplayLibrary) (bundle : SignedSkillBundle)
    (scope : SkillVerificationScope) (oracle : Oracle replaySignature ObservationThrown) :
    let log := calls oracle (replay L bundle scope)
    let steps := bundle.payload.steps.toList
    (∀ c ∈ log, touchesTarget c.op → log.head? = some (verifying bundle scope (.ok .valid))) ∧
    (executions log).map (·.step) <+: steps ∧
    ActsOnFreshGraph L log ∧
    (outcome oracle (replay L bundle scope) = .ok .passed →
      ∃ rounds, log = verifying bundle scope (.ok .valid) :: rounds.flatten ∧
        List.Forall₂ (PassedRound L) steps rounds) := by
  intro log steps
  rcases (logs_replay (L := L) bundle scope).calls oracle with
    ⟨reply, hlog, hr⟩ | ⟨rounds, result, hlog, hrounds, hpassed⟩
  · have hnone : executions log = [] := by rw [show log = _ from hlog]; rfl
    refine ⟨?_, ?_, actsOnFreshGraph_of_none hnone, fun h => absurd h hr⟩
    · intro c hc htouch
      rw [show log = _ from hlog, List.mem_singleton] at hc
      rw [hc] at htouch
      exact htouch.elim
    · rw [hnone]
      exact List.nil_prefix
  · have hverify : executions log = executions rounds := by
      rw [show log = _ from hlog]
      rfl
    refine ⟨?_, ?_, ?_, fun h => ?_⟩
    · intro c hc htouch
      rw [show log = _ from hlog]
      rfl
    · rw [hverify]
      exact hrounds.executions_prefix
    · have hfirst : ActsOnFreshGraph L
          [verifying bundle scope (.ok .valid)] := actsOnFreshGraph_of_none rfl
      rw [show log = _ from hlog]
      exact hfirst.append hrounds.actsOnFreshGraph
    · obtain ⟨parts, rfl, hall⟩ := hrounds.passedRounds (hpassed h)
      exact ⟨parts, hlog, hall⟩

end Qualigence.Skill.SkillReplayController
