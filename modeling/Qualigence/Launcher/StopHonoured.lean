import Qualigence.Launcher.StopRequest
import Mathlib.Data.Option.Basic
import Mathlib.Logic.Function.Iterate

/-! # Published stop requests

A caller settles when it has linked its request or has found one for its topology. From then on such
a request is at its path, or a caller is about to put it back, or the supervisor has claimed it; what
can go wrong is that a caller puts the request of another topology in its place, or that the
supervisor claims a request that is too old or too new for its poll.
-/

namespace Qualigence.Launcher.StopWorld

variable {c : Running} {w : StopWorld} {i : ℕ}

/-- The caller has published its request, or takes one that it has found for its own. -/
def settled : PublishPhase → Bool
  | .leaving none | .returned none => true
  | _ => false

/-- A file with a request for the running topology. -/
def OfTopology (c : Running) (file : StopFile) : Prop :=
  ∃ marker, file = .request marker ∧ sameTopology marker.topology c.topology = true

/-- A request for the running topology that the supervisor claims is neither too old nor too new for
its poll, if that has been called within the maximum age of the request `own`. -/
def ClaimsFresh (c : Running) (own : LocalStopRequest) (w : StopWorld) : Prop :=
  match w.poll, w.canonical with
  | .claiming now, some (.request marker) =>
    sameTopology marker.topology c.topology = true → now ≤ own.requestedAt + c.maximumAgeMs →
      stopRequestMatchesTopology marker c.topology now c.maximumAgeMs = true
  | _, _ => True

/-- No caller puts back the request of another topology where no file is. -/
def PutsOwnBack (c : Running) (w : StopWorld) (j : ℕ) : Prop :=
  match (w.publishers[j]?).map Publisher.phase, w.canonical with
  | some (.puttingBack existing), none => sameTopology existing.topology c.topology = true
  | _, _ => True

/-- What a step has to meet once a caller has settled. -/
def Meets (c : Running) (i : ℕ) (w : StopWorld) (a : StopStep) : Prop :=
  ∀ p, w.publishers[i]? = some p → settled p.phase = true → match a with
    | .supervise => ClaimsFresh c p.marker w
    | .advance j => PutsOwnBack c w j
    | _ => True

/-- Every step of a sequence meets the condition. -/
def MeetsAll (c : Running) (i : ℕ) : StopWorld → List StopStep → Prop
  | _, [] => True
  | w, a :: rest => Meets c i w a ∧ MeetsAll c i (w.step c a) rest

def run (c : Running) (w : StopWorld) (steps : List StopStep) : StopWorld :=
  steps.foldl (fun w a => w.step c a) w

/-! ## What stays in play -/

/-- The caller has claimed a request for the running topology and is to put it back. -/
def Holds (c : Running) : PublishPhase → Prop
  | .reading claimed => OfTopology c claimed
  | .puttingBack existing => sameTopology existing.topology c.topology = true
  | _ => False

/-- The supervisor has claimed a request that matches. -/
def Matching (c : Running) : PollPhase → Prop
  | .reading now claim => ∃ marker, claim = .request marker ∧
    stopRequestMatchesTopology marker c.topology now c.maximumAgeMs = true
  | .checking now marker => stopRequestMatchesTopology marker c.topology now c.maximumAgeMs = true
  | .removing result => result = true
  | .stopping => True
  | _ => False

/-- A request for the running topology is in play. -/
def InPlay (c : Running) (w : StopWorld) : Prop :=
  w.canonical ≠ none ∨ (∃ q ∈ w.publishers, Holds c q.phase) ∨ Matching c w.poll

structure Kept (c : Running) (i : ℕ) (w : StopWorld) : Prop where
  own : ∀ q ∈ w.publishers, sameTopology q.marker.topology c.topology = true
  started : ∀ now, w.poll = .claiming now → now ≤ w.now
  canonical : ∀ p, w.publishers[i]? = some p → settled p.phase = true →
    ∀ file ∈ w.canonical, OfTopology c file
  inPlay : ∀ p, w.publishers[i]? = some p → settled p.phase = true →
    InPlay c w ∨ p.marker.requestedAt + c.maximumAgeMs < w.now

theorem sameTopology_iff {left right : Topology} : sameTopology left right = true ↔ left = right := by
  cases left
  cases right
  simp [sameTopology]

theorem matches_same {marker : LocalStopRequest} {topology : Topology} {now : ℤ} {age : ℕ}
    (h : stopRequestMatchesTopology marker topology now age = true) :
    sameTopology marker.topology topology = true := by
  simp only [stopRequestMatchesTopology, decide_eq_true_eq] at h
  simp only [sameTopology, decide_eq_true_eq]
  exact ⟨h.1, h.2.1, h.2.2.1, h.2.2.2.1⟩

theorem initial_kept (now : ℤ) (left : Option StopFile) : Kept c i (initial now left) where
  own := fun _ h => absurd h List.not_mem_nil
  started := nofun
  canonical := nofun
  inPlay := nofun

/-! ## Steps of the callers -/

/-- What the next operation of a caller does to the file at the path and to the caller. -/
inductive Moves (p : Publisher) : Option StopFile → Option StopFile → PublishPhase → Prop
  | linked (h : p.phase = .linking) : Moves p none (some (.request p.marker)) (.leaving none)
  | exists' (file : StopFile) (h : p.phase = .linking) : Moves p (some file) (some file) .claiming
  | claimed (file : StopFile) (h : p.phase = .claiming) : Moves p (some file) none (.reading file)
  | gone (h : p.phase = .claiming) : Moves p none none .linking
  | read (marker : LocalStopRequest) (file : Option StopFile)
      (h : p.phase = .reading (.request marker)) : Moves p file file (.puttingBack marker)
  | malformed (file : Option StopFile) (h : p.phase = .reading .malformed) :
      Moves p file file (.removing none)
  | putBack (existing : LocalStopRequest) (h : p.phase = .puttingBack existing) :
      Moves p none (some (.request existing)) (.removing (some existing))
  | taken (file : StopFile) (existing : LocalStopRequest) (h : p.phase = .puttingBack existing) :
      Moves p (some file) (some file) (.removing (some existing))
  | removed (file : Option StopFile) (existing : Option LocalStopRequest)
      (h : p.phase = .removing existing) : Moves p file file (afterClaim p existing)
  | found (current : LocalStopRequest) (h : p.phase = .rereading)
      (hsame : sameTopology current.topology p.marker.topology = true) :
      Moves p (some (.request current)) (some (.request current)) (.leaving none)
  | lost (file : Option StopFile) (h : p.phase = .rereading) : Moves p file file .linking
  | left (file : Option StopFile) (thrown : Option LauncherError) (h : p.phase = .leaving thrown) :
      Moves p file file (.returned thrown)
  | stays (file : Option StopFile) : Moves p file file p.phase

theorem publishNext_moves (w : StopWorld) {j : ℕ} {p : Publisher} (hp : w.publishers[j]? = some p) :
    ∃ file phase, Moves p w.canonical file phase ∧ w.publishNext j p =
      { w with canonical := file, publishers := w.publishers.set j { p with phase } } := by
  obtain ⟨now, canonical, publishers, poll⟩ := w
  obtain ⟨marker, phase⟩ := p
  cases phase with
  | linking =>
    cases canonical with
    | none => exact ⟨_, _, .linked rfl, rfl⟩
    | some file => exact ⟨_, _, .exists' file rfl, rfl⟩
  | claiming =>
    cases canonical with
    | none => exact ⟨_, _, .gone rfl, rfl⟩
    | some file => exact ⟨_, _, .claimed file rfl, rfl⟩
  | reading claimed =>
    cases claimed with
    | request marker => exact ⟨_, _, .read marker _ rfl, rfl⟩
    | malformed => exact ⟨_, _, .malformed _ rfl, rfl⟩
  | puttingBack existing =>
    cases canonical with
    | none => exact ⟨_, _, .putBack existing rfl, rfl⟩
    | some file => exact ⟨_, _, .taken file existing rfl, rfl⟩
  | removing existing => exact ⟨_, _, .removed _ existing rfl, rfl⟩
  | rereading =>
    cases canonical with
    | none => exact ⟨_, _, .lost _ rfl, rfl⟩
    | some file =>
      cases file with
      | malformed => exact ⟨_, _, .lost _ rfl, rfl⟩
      | request current =>
        by_cases hsame : sameTopology current.topology marker.topology = true
        · exact ⟨_, _, .found current rfl hsame, by simp [publishNext, parseStopRequest, hsame, setPhase]⟩
        · exact ⟨_, _, .lost _ rfl, by simp [publishNext, parseStopRequest, hsame, setPhase]⟩
  | leaving thrown => exact ⟨_, _, .left _ thrown rfl, rfl⟩
  | returned thrown =>
    obtain ⟨hj, he⟩ := List.getElem?_eq_some_iff.mp hp
    have hset : publishers.set j ⟨marker, .returned thrown⟩ = publishers := by
      rw [← he]
      exact List.set_getElem_self hj
    exact ⟨_, _, .stays _, by simp [publishNext, hset]⟩

theorem ofTopology_of_same {marker : LocalStopRequest} {topology : Topology}
    (hsame : sameTopology marker.topology topology = true)
    (hown : sameTopology topology c.topology = true) : OfTopology c (.request marker) :=
  ⟨marker, rfl, sameTopology_iff.mpr
    ((sameTopology_iff.mp hsame).trans (sameTopology_iff.mp hown))⟩

/-- A caller settles when its topology's request is at the path. -/
theorem Moves.settles {p : Publisher} {file file' : Option StopFile} {phase : PublishPhase}
    (h : Moves p file file' phase) (hset : settled phase = true) :
    settled p.phase = true ∧ file' = file ∨ ∃ marker, file' = some (.request marker) ∧
      sameTopology marker.topology p.marker.topology = true := by
  cases h with
  | linked => exact .inr ⟨p.marker, rfl, sameTopology_iff.mpr rfl⟩
  | found current _ hsame => exact .inr ⟨current, rfl, hsame⟩
  | left _ thrown h =>
    rw [h]
    cases thrown with
    | none => exact .inl ⟨rfl, rfl⟩
    | some e => cases hset
  | stays => exact .inl ⟨hset, rfl⟩
  | removed =>
    unfold afterClaim at hset
    split at hset
    · cases hset
    · split at hset <;> cases hset
  | exists' | claimed | gone | read | malformed | putBack | taken | lost => cases hset

/-- Where the file at the path comes from. -/
theorem Moves.origin {p : Publisher} {file file' : Option StopFile} {phase : PublishPhase}
    (h : Moves p file file' phase) : file' = file ∨ file' = none ∨
      file' = some (.request p.marker) ∨
      ∃ existing, p.phase = .puttingBack existing ∧ file = none ∧
        file' = some (.request existing) := by
  cases h with
  | linked => exact .inr (.inr (.inl rfl))
  | claimed => exact .inr (.inl rfl)
  | putBack existing h => exact .inr (.inr (.inr ⟨existing, h, rfl, rfl⟩))
  | exists' | gone | read | malformed | taken | removed | found | lost | left | stays =>
    exact .inl rfl

/-- A request for the topology that a caller takes or holds stays in play. -/
theorem Moves.holds {p : Publisher} {file file' : Option StopFile} {phase : PublishPhase}
    (h : Moves p file file' phase) (hfile : ∀ f ∈ file, OfTopology c f)
    (hplay : file ≠ none ∨ Holds c p.phase) : file' ≠ none ∨ Holds c phase := by
  cases h with
  | linked | exists' | putBack | taken | found => exact .inl nofun
  | claimed file => exact .inr (hfile file rfl)
  | gone h =>
    rcases hplay with hne | hh
    · exact absurd rfl hne
    · rw [h] at hh
      exact hh.elim
  | read marker file h =>
    refine hplay.imp id fun hh => ?_
    rw [h] at hh
    obtain ⟨_, ⟨⟩, hsame⟩ := hh
    exact hsame
  | malformed file h =>
    refine hplay.imp id fun hh => ?_
    rw [h] at hh
    obtain ⟨_, ⟨⟩, _⟩ := hh
  | removed file existing h | lost file h | left file thrown h =>
    refine hplay.imp id fun hh => ?_
    rw [h] at hh
    exact hh.elim
  | stays => exact hplay

theorem Kept.advance (hk : Kept c i w) {j : ℕ} {p : Publisher} (hp : w.publishers[j]? = some p)
    (hm : Meets c i w (.advance j)) : Kept c i (w.publishNext j p) := by
  obtain ⟨file, phase, hmove, heq⟩ := publishNext_moves w hp
  rw [heq]
  have hown := hk.own p (List.mem_of_getElem? hp)
  have hlt : j < w.publishers.length := (List.getElem?_eq_some_iff.mp hp).1
  -- the caller `i` after the step, with what it was before
  have hbefore : ∀ q, (w.publishers.set j { p with phase })[i]? = some q → settled q.phase = true →
      (∃ q', w.publishers[i]? = some q' ∧ q'.marker = q.marker ∧ settled q'.phase = true) ∨
      ∃ f, file = some f ∧ OfTopology c f := by
    intro q hq hset
    by_cases hij : j = i
    · subst hij
      rw [List.getElem?_set_self hlt] at hq
      cases hq
      rcases hmove.settles hset with ⟨hold, -⟩ | ⟨marker, rfl, hsame⟩
      · exact .inl ⟨p, hp, rfl, hold⟩
      · exact .inr ⟨_, rfl, ofTopology_of_same hsame hown⟩
    · rw [List.getElem?_set_ne hij] at hq
      exact .inl ⟨q, hq, rfl, hset⟩
  have hfile : ∀ q, (w.publishers.set j { p with phase })[i]? = some q → settled q.phase = true →
      ∀ f ∈ file, OfTopology c f := by
    intro q hq hset f hf
    rcases hbefore q hq hset with ⟨q', hq', -, hset'⟩ | ⟨f', rfl, hf'⟩
    · rcases hmove.origin with rfl | rfl | rfl | ⟨existing, hph, hnone, rfl⟩
      · exact hk.canonical q' hq' hset' f hf
      · cases hf
      · cases hf
        exact ⟨_, rfl, hown⟩
      · cases hf
        have hput := hm q' hq' hset'
        simp only [PutsOwnBack, hp, Option.map_some, hph, hnone] at hput
        exact ⟨_, rfl, hput⟩
    · cases hf
      exact hf'
  refine ⟨?_, hk.started, hfile, ?_⟩
  · intro q hq
    rcases List.mem_or_eq_of_mem_set hq with hq | rfl
    · exact hk.own q hq
    · exact hown
  · intro q hq hset
    rcases hbefore q hq hset with ⟨q', hq', hmarker, hset'⟩ | ⟨f, rfl, -⟩
    · rw [← hmarker]
      refine (hk.inPlay q' hq' hset').imp (fun hplay => ?_) id
      have hset_mem : ∀ k q, (w.publishers.set j { p with phase })[k]? = some q →
          q ∈ w.publishers.set j { p with phase } := fun k q h => List.mem_of_getElem? h
      have hnew : (w.publishers.set j { p with phase })[j]? = some { p with phase } :=
        List.getElem?_set_self hlt
      rcases hplay with hne | ⟨q₁, hq₁, hh⟩ | hmatch
      · exact (hmove.holds (hk.canonical q' hq' hset') (.inl hne)).imp id fun hh =>
          .inl ⟨_, hset_mem j _ hnew, hh⟩
      · obtain ⟨k, hk₁⟩ := List.mem_iff_getElem?.mp hq₁
        by_cases hjk : j = k
        · subst hjk
          rw [hp] at hk₁
          cases hk₁
          exact (hmove.holds (hk.canonical q' hq' hset') (.inr hh)).imp id fun hh =>
            .inl ⟨_, hset_mem j _ hnew, hh⟩
        · exact .inr (.inl ⟨q₁, hset_mem k _ (by rwa [List.getElem?_set_ne hjk]), hh⟩)
      · exact .inr (.inr hmatch)
    · exact .inl (.inl nofun)

/-! ## Steps of the supervisor -/

/-- What the supervisor has claimed goes on to match. -/
theorem matching_supervise (h : Matching c w.poll) : Matching c (w.superviseNext c).poll := by
  obtain ⟨now, canonical, publishers, poll⟩ := w
  cases poll with
  | idle => exact h.elim
  | claiming now => exact h.elim
  | reading now claim =>
    obtain ⟨marker, rfl, hm⟩ := h
    exact hm
  | checking now marker =>
    have hm : stopRequestMatchesTopology marker c.topology now c.maximumAgeMs = true := h
    change (sameTopology c.topology c.topology &&
      stopRequestMatchesTopology marker c.topology now c.maximumAgeMs) = true
    rw [hm, sameTopology_iff.mpr rfl]
    rfl
  | removing result =>
    have hr : result = true := h
    subst hr
    exact trivial
  | stopping => exact trivial

/-- Apart from a rename, the supervisor changes nothing but how far it is. -/
theorem superviseNext_rest : (∃ now file, w.poll = .claiming now ∧ w.canonical = some file ∧
      w.superviseNext c = { w with canonical := none, poll := .reading now file }) ∨
    ∃ poll, w.superviseNext c = { w with poll } ∧ ∀ now, poll ≠ .claiming now := by
  obtain ⟨now, canonical, publishers, poll⟩ := w
  cases poll with
  | claiming started =>
    cases canonical with
    | none => exact .inr ⟨.idle, rfl, nofun⟩
    | some file => exact .inl ⟨started, file, rfl, rfl, rfl⟩
  | reading started claim =>
    cases claim with
    | request marker => exact .inr ⟨.checking started marker, rfl, nofun⟩
    | malformed => exact .inr ⟨.removing false, rfl, nofun⟩
  | checking started marker => exact .inr ⟨_, rfl, nofun⟩
  | removing result => exact .inr ⟨_, rfl, by cases result <;> exact nofun⟩
  | idle => exact .inr ⟨.idle, rfl, nofun⟩
  | stopping => exact .inr ⟨.stopping, rfl, nofun⟩

theorem Kept.supervise (hk : Kept c i w) (hm : Meets c i w .supervise) :
    Kept c i (w.superviseNext c) := by
  rcases superviseNext_rest (c := c) (w := w) with ⟨now, file, hpoll, hcan, heq⟩ | ⟨poll, heq, hne⟩
  · rw [heq]
    refine ⟨hk.own, nofun, nofun, fun p hp hset => ?_⟩
    obtain ⟨marker, rfl, hsame⟩ := hk.canonical p hp hset file hcan
    by_cases hlate : now ≤ p.marker.requestedAt + c.maximumAgeMs
    · have hfresh := hm p hp hset
      simp only [ClaimsFresh, hpoll, hcan] at hfresh
      exact .inl (.inr (.inr ⟨marker, rfl, hfresh hsame hlate⟩))
    · exact .inr (Int.lt_of_lt_of_le (Int.not_le.mp hlate) (hk.started now hpoll))
  · have hmatch : Matching c w.poll → Matching c poll := by
      intro h
      have hnext := matching_supervise h
      rwa [heq] at hnext
    rw [heq]
    exact ⟨hk.own, fun now h => absurd h (hne now), hk.canonical, fun p hp hset =>
      (hk.inPlay p hp hset).imp (Or.imp id (Or.imp id hmatch)) id⟩

theorem Kept.step (hk : Kept c i w) {a : StopStep} (hm : Meets c i w a) : Kept c i (w.step c a) := by
  cases a with
  | clock now =>
    refine ⟨hk.own, fun t ht => ?_, hk.canonical, fun p hp hset => ?_⟩
    · exact Int.le_trans (hk.started t ht) (Int.le_max_left _ _)
    · exact (hk.inPlay p hp hset).imp id fun h => Int.lt_of_lt_of_le h (Int.le_max_left _ _)
  | publish marker =>
    simp only [StopWorld.step]
    split
    · next hsame =>
      have hold : ∀ p, (w.publishers ++ [⟨marker, .linking⟩])[i]? = some p →
          settled p.phase = true → w.publishers[i]? = some p := by
        intro p hp hset
        rw [List.getElem?_append] at hp
        split at hp
        · exact hp
        · rw [List.mem_singleton.mp (List.mem_of_getElem? hp)] at hset
          cases hset
      refine ⟨fun q hq => ?_, hk.started, fun p hp hset => hk.canonical p (hold p hp hset) hset,
        fun p hp hset => ?_⟩
      · rcases List.mem_append.mp hq with hq | hq
        · exact hk.own q hq
        · rw [List.mem_singleton.mp hq]
          exact hsame
      · refine (hk.inPlay p (hold p hp hset) hset).imp (Or.imp id (Or.imp ?_ id)) id
        rintro ⟨q, hq, hh⟩
        exact ⟨q, List.mem_append_left _ hq, hh⟩
    · exact hk
  | advance j =>
    simp only [StopWorld.step]
    split
    · next p hp => exact hk.advance hp hm
    · exact hk
  | startPoll =>
    simp only [StopWorld.step]
    split
    · next hidle =>
      refine ⟨hk.own, ?_, hk.canonical, fun p hp hset => ?_⟩
      · rintro _ ⟨⟩
        exact Int.le_refl _
      · refine (hk.inPlay p hp hset).imp (Or.imp id (Or.imp id ?_)) id
        rw [hidle]
        exact False.elim
    · exact hk
  | supervise => exact hk.supervise hm

theorem Kept.run (hk : Kept c i w) {steps : List StopStep} (hm : MeetsAll c i w steps) :
    Kept c i (w.run c steps) := by
  induction steps generalizing w with
  | nil => exact hk
  | cons a rest ih => exact ih (hk.step hm.1) hm.2

/-! ## A poll of its own -/

/-- The supervisor polls once, and nobody else does anything. -/
def pollAlone (c : Running) (w : StopWorld) : StopWorld :=
  w.run c [.startPoll, .supervise, .supervise, .supervise, .supervise]

/-- No caller is active. -/
def Quiet (w : StopWorld) : Prop := ∀ q ∈ w.publishers, ∃ thrown, q.phase = .returned thrown

theorem not_holds_of_quiet (h : Quiet w) : ¬ ∃ q ∈ w.publishers, Holds c q.phase := by
  rintro ⟨q, hq, hh⟩
  obtain ⟨thrown, hr⟩ := h q hq
  rw [hr] at hh
  exact hh

/-- A poll that finds a request for its topology returns whether it is fresh. -/
theorem pollAlone_poll {marker : LocalStopRequest} (hidle : w.poll = .idle)
    (hcan : w.canonical = some (.request marker)) : (pollAlone c w).poll =
      if stopRequestMatchesTopology marker c.topology w.now c.maximumAgeMs then .stopping
      else .idle := by
  obtain ⟨now, canonical, publishers, poll⟩ := w
  cases hidle
  cases hcan
  simp [pollAlone, StopWorld.run, StopWorld.step, superviseNext, parseStopRequest,
    Running.readRuntimeState, sameTopology_iff.mpr]

/-- A caller has returned from publishing its request, in a run whose steps all meet the condition.
Then a poll that is called within the maximum age of the request, with no caller active, returns
true exactly when the request that it claims is neither too old nor too new for it. -/
theorem request_honoured (c : Running) (now : ℤ) (left : Option StopFile) (steps : List StopStep)
    (i : ℕ) (hmeets : MeetsAll c i (initial now left) steps) (p : Publisher)
    (hp : ((initial now left).run c steps).publishers[i]? = some p)
    (hreturned : p.phase = .returned none) (hquiet : Quiet ((initial now left).run c steps))
    (hidle : ((initial now left).run c steps).poll = .idle)
    (hwindow : ((initial now left).run c steps).now ≤ p.marker.requestedAt + c.maximumAgeMs) :
    (pollAlone c ((initial now left).run c steps)).poll = .stopping ↔
      Meets c i (((initial now left).run c steps).step c .startPoll) .supervise := by
  have hk := (initial_kept (c := c) (i := i) now left).run hmeets
  revert hk hp hquiet hidle hwindow
  generalize (initial now left).run c steps = w
  intro hp hquiet hidle hwindow hk
  have hset : settled p.phase = true := by
    rw [hreturned]
    rfl
  -- with no caller active and no poll under way, the request in play is at the path
  have hcan : w.canonical ≠ none := by
    rcases hk.inPlay p hp hset with hne | hlate
    · rcases hne with hne | hh | hmatch
      · exact hne
      · exact absurd hh (not_holds_of_quiet hquiet)
      · rw [hidle] at hmatch
        exact hmatch.elim
    · exact absurd hwindow (Int.not_le.mpr hlate)
  obtain ⟨file, hfile⟩ := Option.ne_none_iff_exists'.mp hcan
  obtain ⟨marker, rfl, hsame⟩ := hk.canonical p hp hset file hfile
  rw [pollAlone_poll hidle hfile]
  have hstart : w.step c .startPoll = { w with poll := .claiming w.now } := by
    simp only [StopWorld.step, hidle]
  rw [hstart]
  constructor
  · intro hstop q hq _
    simp only [ClaimsFresh, hfile]
    intro _ _
    split at hstop
    · assumption
    · cases hstop
  · intro hm
    have hfresh := hm p hp hset
    simp only [ClaimsFresh, hfile] at hfresh
    rw [if_pos (hfresh hsame hwindow)]

def localRunning : Running := ⟨⟨10, 11, 12, "2026-08-19T00:00:00.000Z"⟩, 30000⟩

def requestAt (requestedAt : ℤ) : LocalStopRequest := ⟨localRunning.topology, requestedAt⟩

/-- A caller whose operations follow each other. -/
def publishAlone (requestedAt : ℤ) (operations : ℕ) : List StopStep :=
  .publish (requestAt requestedAt) :: List.replicate operations (.advance 0)

/-- A request of the same topology has been left that is twice as old as a request may be; a caller
takes it for its own. -/
def staleWorld : StopWorld :=
  (initial 60000 (some (.request (requestAt 0)))).run localRunning (publishAlone 60000 7)

/-- No poll honours the request that the caller has published. -/
theorem stale_request_lost : staleWorld.publishers = [⟨requestAt 60000, .returned none⟩] ∧
    ∀ n, ((pollAlone localRunning)^[n] staleWorld).poll = .idle := by
  refine ⟨by decide, fun n => ?_⟩
  have hfix : pollAlone localRunning (pollAlone localRunning staleWorld) =
      pollAlone localRunning staleWorld := by decide
  have hidle : (pollAlone localRunning staleWorld).poll = .idle := by decide
  cases n with
  | zero => decide
  | succ n =>
    rw [Function.iterate_succ_apply]
    rw [Function.iterate_fixed hfix]
    exact hidle

/-- A request in an empty directory. -/
theorem request_honoured_alone :
    (pollAlone localRunning ((initial 0 none).run localRunning (publishAlone 0 2))).poll =
      .stopping := by
  refine (request_honoured localRunning 0 none (publishAlone 0 2) 0 ?_ ⟨requestAt 0, .returned none⟩
    rfl rfl ?_ rfl (by decide)).mpr ?_
  · exact ⟨fun _ _ _ => trivial, fun _ _ _ => trivial, fun _ _ _ => trivial, trivial⟩
  · intro q hq
    rw [List.mem_singleton.mp hq]
    exact ⟨none, rfl⟩
  · rintro p ⟨⟩ _ _ _
    decide

end Qualigence.Launcher.StopWorld
