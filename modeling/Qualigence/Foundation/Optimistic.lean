import Mathlib.Data.Nat.Notation
import Mathlib.Logic.Function.Basic
import Mathlib.Order.Nat
import Qualigence.Foundation.History

/-! # Optimistic sessions

Objects are read from a store, changed in memory and written back with the version that was read. A
store that takes a write exactly when that version is still the stored one makes the sessions
serial: what is stored under a key is what the sessions that could save did, one after the other.
-/

namespace Qualigence.Foundation.Optimistic

/-- Objects with a key and a version, changed by commands, and what a store keeps of them. -/
structure Aggregate (κ ι σ ε : Type) where
  key : σ → κ
  version : σ → ℕ
  opened : κ → ι → σ
  next : σ → ε → σ
  restored : σ → σ
  key_opened : ∀ k input, key (opened k input) = k
  key_next : ∀ s e, key (next s e) = key s
  key_restored : ∀ s, key (restored s) = key s
  version_opened : ∀ k input, 0 < version (opened k input)
  version_next : ∀ s e, next s e = s ∨ version s < version (next s e)
  version_restored : ∀ s, version (restored s) = version s
  restored_restored : ∀ s, restored (restored s) = restored s

/-- A store of objects by their keys. A write carries the version that the writer saw. -/
structure Store (β κ σ θ : Type) where
  load : β → κ → Option σ
  save : β → σ → ℕ → Except θ β

/-- What happens to an object. -/
inductive Deed (ι ε : Type) where
  | opened (input : ι)
  | reloaded
  | commanded (command : ε)
  deriving DecidableEq

/-- An object in memory, the version last seen in the store and what happened since. -/
structure Session (ι σ ε : Type) where
  object : σ
  expected : ℕ
  pending : List (Deed ι ε)

variable {β ω κ ι σ ε θ : Type}

structure World (β ω κ ι σ ε : Type) where
  db : β
  sessions : ω → Option (Session ι σ ε)
  /-- What the sessions that changed the stored object of a key did to it. -/
  log : κ → List (Deed ι ε)

/-- Nothing was read yet. -/
def World.start (db : β) : World β ω κ ι σ ε := ⟨db, fun _ => none, fun _ => []⟩

inductive Op (ω κ ι ε : Type) where
  | create (worker : ω) (key : κ) (input : ι)
  | load (worker : ω) (key : κ)
  | command (worker : ω) (command : ε)
  | save (worker : ω)

namespace Aggregate

variable (A : Aggregate κ ι σ ε)

/-- An object that is reloaded and commanded, and not opened again. -/
def resume : σ → List (Deed ι ε) → Option σ
  | s, [] => some s
  | s, .reloaded :: deeds => resume (A.restored s) deeds
  | s, .commanded e :: deeds => resume (A.next s e) deeds
  | _, .opened _ :: _ => none

/-- The object of a key, opened first and once. -/
def replay (k : κ) : List (Deed ι ε) → Option σ
  | .opened input :: deeds => A.resume (A.opened k input) deeds
  | _ => none

variable {A} {k : κ} {s s' : σ}

theorem resume_append {past later : List (Deed ι ε)} :
    A.resume s (past ++ later) = (A.resume s past).bind fun s' => A.resume s' later := by
  induction past generalizing s with
  | nil => rfl
  | cons d past ih =>
    cases d with
    | opened input => rfl
    | reloaded => exact ih
    | commanded e => exact ih

theorem replay_append {past later : List (Deed ι ε)} (h : A.replay k past = some s) :
    A.replay k (past ++ later) = A.resume s later := by
  cases past with
  | nil => cases h
  | cons d past =>
    cases d with
    | opened input =>
      have hs : A.resume (A.opened k input) past = some s := h
      change A.resume (A.opened k input) (past ++ later) = _
      rw [resume_append, hs]
      rfl
    | reloaded => cases h
    | commanded e => cases h

theorem replay_snoc {deeds : List (Deed ι ε)} (h : A.replay k deeds = some s) (e : ε) :
    A.replay k (deeds ++ [.commanded e]) = some (A.next s e) := replay_append h

/-- What a command and a reload keep, every sequence of them keeps. -/
theorem of_resume {I : σ → Prop} (hrestored : ∀ s, I s → I (A.restored s))
    (hnext : ∀ s e, I s → I (A.next s e)) {deeds : List (Deed ι ε)} (hs : I s)
    (h : A.resume s deeds = some s') : I s' := by
  induction deeds generalizing s with
  | nil =>
    cases h
    exact hs
  | cons d deeds ih =>
    cases d with
    | opened input => cases h
    | reloaded => exact ih (hrestored s hs) h
    | commanded e => exact ih (hnext s e hs) h

theorem of_replay {I : σ → Prop} (hopened : ∀ input, I (A.opened k input))
    (hrestored : ∀ s, I s → I (A.restored s)) (hnext : ∀ s e, I s → I (A.next s e))
    {deeds : List (Deed ι ε)} (h : A.replay k deeds = some s) : I s := by
  cases deeds with
  | nil => cases h
  | cons d deeds =>
    cases d with
    | opened input => exact of_resume hrestored hnext (hopened input) h
    | reloaded => cases h
    | commanded e => cases h

theorem key_of_replay {deeds : List (Deed ι ε)} (h : A.replay k deeds = some s) : A.key s = k :=
  of_replay (I := fun s => A.key s = k) (A.key_opened k)
    (fun s hs => (A.key_restored s).trans hs) (fun s e hs => (A.key_next s e).trans hs) h

theorem version_le_next (s : σ) (e : ε) : A.version s ≤ A.version (A.next s e) := by
  rcases A.version_next s e with h | h
  · exact (congrArg A.version h).ge
  · exact Nat.le_of_lt h

end Aggregate

/-! ## What is stored -/

section Serial

variable (A : Aggregate κ ι σ ε) (S : Store β κ σ θ)

def World.version (w : World β ω κ ι σ ε) (k : κ) : ℕ := ((S.load w.db k).map A.version).getD 0

/-- An object is stored under its key and the objects of other keys are as before. -/
structure Stores (db : β) (s : σ) (db' : β) : Prop where
  own : S.load db' (A.key s) = some (A.restored s)
  other : ∀ k, k ≠ A.key s → S.load db' k = S.load db k

/-- A write is taken exactly when the version is still the stored one, and stores the object. -/
def Exact (w : World β ω κ ι σ ε) : Op ω κ ι ε → Prop
  | .save worker => ∀ s, w.sessions worker = some s →
    (w.version A S (A.key s.object) = s.expected →
      ∃ db, S.save w.db s.object s.expected = .ok db ∧ Stores A S w.db s.object db) ∧
    (w.version A S (A.key s.object) ≠ s.expected →
      ∃ e, S.save w.db s.object s.expected = .error e)
  | _ => True

/-- A session whose version is still the stored one has an object that continues what is stored. -/
structure Session.Sound (w : World β ω κ ι σ ε) (s : Session ι σ ε) : Prop where
  le_stored : s.expected ≤ w.version A S (A.key s.object)
  le_object : s.expected ≤ A.version s.object
  continues : w.version A S (A.key s.object) = s.expected →
    A.replay (A.key s.object) (w.log (A.key s.object) ++ s.pending) = some s.object
  unchanged : w.version A S (A.key s.object) = s.expected → A.version s.object = s.expected →
    S.load w.db (A.key s.object) = some (A.restored s.object)

/-- What is stored is what the recorded sessions did, one after the other. -/
structure Serial (w : World β ω κ ι σ ε) : Prop where
  stored : ∀ k, S.load w.db k = (A.replay k (w.log k)).map A.restored
  lawful : ∀ k, w.log k ≠ [] → (A.replay k (w.log k)).isSome
  sessions : ∀ worker s, w.sessions worker = some s → s.Sound A S w

variable {A S} {w : World β ω κ ι σ ε}

/-- Soundness of a session depends on its own key only. -/
theorem Session.Sound.transfer {w' : World β ω κ ι σ ε} {s : Session ι σ ε} (h : s.Sound A S w)
    (hload : S.load w'.db (A.key s.object) = S.load w.db (A.key s.object))
    (hlog : w'.log (A.key s.object) = w.log (A.key s.object)) : s.Sound A S w' := by
  have hv : w'.version A S (A.key s.object) = w.version A S (A.key s.object) := by
    rw [World.version, World.version, hload]
  refine ⟨?_, h.le_object, ?_, ?_⟩
  · rw [hv]
    exact h.le_stored
  · rw [hv, hlog]
    exact h.continues
  · rw [hv, hload]
    exact h.unchanged

theorem Serial.version_eq (h : Serial A S w) {k : κ} {s : σ}
    (hs : A.replay k (w.log k) = some s) : w.version A S k = A.version s := by
  rw [World.version, h.stored, hs]
  exact A.version_restored s

theorem Serial.version_eq_zero (h : Serial A S w) {k : κ} (hs : A.replay k (w.log k) = none) :
    w.version A S k = 0 ∧ w.log k = [] := by
  constructor
  · rw [World.version, h.stored, hs]
    rfl
  · by_contra hne
    have hsome := h.lawful k hne
    rw [hs] at hsome
    cases hsome

theorem version_pos_of_replay {k : κ} {s : σ} {deeds : List (Deed ι ε)}
    (h : A.replay k deeds = some s) : 0 < A.version s :=
  Aggregate.of_replay (I := fun s => 0 < A.version s) (A.version_opened k)
    (fun s hs => (A.version_restored s).symm ▸ hs)
    (fun s e hs => Nat.lt_of_lt_of_le hs (A.version_le_next s e)) h

/-- A session of another worker stays sound when the object of a key is written. -/
theorem Session.Sound.written {s s' : Session ι σ ε} {w' : World β ω κ ι σ ε}
    (h' : s'.Sound A S w) (hv : w.version A S (A.key s.object) = s.expected)
    (hlt : s.expected < A.version s.object)
    (hstores : Stores A S w.db s.object w'.db)
    (hlog : ∀ k, k ≠ A.key s.object → w'.log k = w.log k) : s'.Sound A S w' := by
  by_cases hk : A.key s'.object = A.key s.object
  · have hversion : w'.version A S (A.key s'.object) = A.version s.object := by
      rw [World.version, hk, hstores.own]
      exact A.version_restored s.object
    have hle : s'.expected ≤ s.expected := by
      rw [← hv, ← hk]
      exact h'.le_stored
    refine ⟨?_, h'.le_object, ?_, ?_⟩
    · omega
    · intro hcurrent
      omega
    · intro hcurrent
      omega
  · exact h'.transfer (hstores.other _ hk) (hlog _ hk)

/-- An object that has its version still is written again. -/
theorem Serial.rewritten (h : Serial A S w) {worker : ω} {s : Session ι σ ε}
    (hs : w.sessions worker = some s) (hv : w.version A S (A.key s.object) = s.expected)
    (hsame : A.version s.object = s.expected) {db : β} (hstores : Stores A S w.db s.object db) :
    Serial A S { w with db := db } := by
  have hload : ∀ k, S.load db k = S.load w.db k := by
    intro k
    by_cases hk : k = A.key s.object
    · rw [hk, hstores.own, (h.sessions worker s hs).unchanged hv hsame]
    · exact hstores.other k hk
  exact ⟨fun k => (hload k).trans (h.stored k), h.lawful, fun worker' s' hs' =>
    (h.sessions worker' s' hs').transfer (hload _) rfl⟩

theorem serial_start {db : β} (h : ∀ k, S.load db k = none) :
    Serial A S (World.start db : World β ω κ ι σ ε) where
  stored k := h k
  lawful _ hk := absurd rfl hk
  sessions _ _ hs := by cases hs

end Serial

/-! ## Steps -/

section Step

variable [DecidableEq ω] [DecidableEq κ] (A : Aggregate κ ι σ ε) (S : Store β κ σ θ)

/-- A write of an object that has its version still changes nothing and is not recorded. -/
def World.saved (w : World β ω κ ι σ ε) (worker : ω) (s : Session ι σ ε) (db : β) :
    World β ω κ ι σ ε :=
  if A.version s.object = s.expected then { w with db := db }
  else
    { db := db
      sessions := Function.update w.sessions worker
        (some { s with expected := A.version s.object, pending := [] })
      log := Function.update w.log (A.key s.object) (w.log (A.key s.object) ++ s.pending) }

def step (w : World β ω κ ι σ ε) : Op ω κ ι ε → World β ω κ ι σ ε
  | .create worker k input =>
    { w with
      sessions := Function.update w.sessions worker
        (some ⟨A.opened k input, 0, [.opened input]⟩) }
  | .load worker k =>
    match S.load w.db k with
    | none => w
    | some s =>
      { w with
        sessions := Function.update w.sessions worker (some ⟨s, A.version s, [.reloaded]⟩) }
  | .command worker e =>
    match w.sessions worker with
    | none => w
    | some s =>
      { w with
        sessions := Function.update w.sessions worker
          (some { s with object := A.next s.object e, pending := s.pending ++ [.commanded e] }) }
  | .save worker =>
    match w.sessions worker with
    | none => w
    | some s =>
      match S.save w.db s.object s.expected with
      | .error _ => w
      | .ok db => w.saved A worker s db

variable {A S} {w : World β ω κ ι σ ε}

theorem sessions_update {P : Session ι σ ε → Prop} {sessions : ω → Option (Session ι σ ε)}
    {worker : ω} {s₀ : Session ι σ ε} (hnew : P s₀)
    (hold : ∀ worker' s, worker' ≠ worker → sessions worker' = some s → P s) (worker' : ω)
    (s : Session ι σ ε) (h : Function.update sessions worker (some s₀) worker' = some s) : P s := by
  by_cases he : worker' = worker
  · subst he
    rw [Function.update_self] at h
    cases h
    exact hnew
  · rw [Function.update_of_ne he] at h
    exact hold worker' s he h

theorem Serial.create (h : Serial A S w) (worker : ω) (k : κ) (input : ι) :
    Serial A S (Optimistic.step A S w (.create worker k input)) := by
  refine ⟨h.stored, h.lawful, ?_⟩
  refine sessions_update (P := fun s => s.Sound A S _) ?_ fun worker' s _ hs =>
    (h.sessions worker' s hs).transfer rfl rfl
  refine ⟨Nat.zero_le _, Nat.zero_le _, ?_, ?_⟩
  · intro hv
    dsimp only at hv ⊢
    rw [A.key_opened] at hv ⊢
    cases hr : A.replay k (w.log k) with
    | none =>
      change A.replay k (w.log k ++ _) = _
      rw [(h.version_eq_zero hr).2]
      rfl
    | some s =>
      have hpos := version_pos_of_replay hr
      have hz : w.version A S k = 0 := hv
      rw [h.version_eq hr] at hz
      omega
  · intro _ hv
    exact absurd hv (A.version_opened k input).ne'

theorem Serial.load (h : Serial A S w) (worker : ω) (k : κ) :
    Serial A S (Optimistic.step A S w (.load worker k)) := by
  rw [Optimistic.step]
  cases hload : S.load w.db k with
  | none => exact h
  | some s =>
    obtain ⟨s₀, hs₀, hs⟩ := Option.map_eq_some_iff.mp ((h.stored k).symm.trans hload)
    have hkey : A.key s = k := by
      rw [← hs, A.key_restored]
      exact Aggregate.key_of_replay hs₀
    have hrestored : A.restored s = s := by
      rw [← hs, A.restored_restored]
    refine ⟨h.stored, h.lawful, ?_⟩
    refine sessions_update (P := fun s => s.Sound A S _) ?_ fun worker' s _ hs =>
      (h.sessions worker' s hs).transfer rfl rfl
    have hv : w.version A S k = A.version s := by
      rw [World.version, hload]
      rfl
    refine ⟨?_, le_rfl, ?_, ?_⟩
    · exact (hkey ▸ hv).ge
    · intro _
      dsimp only
      rw [hkey, Aggregate.replay_append hs₀, ← hs]
      rfl
    · intro _ _
      dsimp only
      rw [hkey, hload, hrestored]

theorem Serial.command (h : Serial A S w) (worker : ω) (e : ε) :
    Serial A S (Optimistic.step A S w (.command worker e)) := by
  rw [Optimistic.step]
  cases hs : w.sessions worker with
  | none => exact h
  | some s =>
    have hsound := h.sessions worker s hs
    refine ⟨h.stored, h.lawful, ?_⟩
    refine sessions_update (P := fun s => s.Sound A S _) ?_ fun worker' s _ hs =>
      (h.sessions worker' s hs).transfer rfl rfl
    refine ⟨?_, hsound.le_object.trans (A.version_le_next s.object e), ?_, ?_⟩
    · dsimp only
      rw [A.key_next]
      exact hsound.le_stored
    · intro hv
      dsimp only at hv ⊢
      rw [A.key_next] at hv ⊢
      rw [← List.append_assoc]
      exact Aggregate.replay_snoc (hsound.continues hv) e
    · intro hv hobject
      dsimp only at hv hobject ⊢
      rw [A.key_next] at hv ⊢
      rcases A.version_next s.object e with hsame | hlt
      · rw [hsame] at hobject ⊢
        exact hsound.unchanged hv hobject
      · have hle := hsound.le_object
        omega

theorem Serial.saved (h : Serial A S w) {worker : ω} {s : Session ι σ ε}
    (hs : w.sessions worker = some s) (hv : w.version A S (A.key s.object) = s.expected)
    {db : β} (hstores : Stores A S w.db s.object db) : Serial A S (w.saved A worker s db) := by
  have hsound := h.sessions worker s hs
  unfold World.saved
  split
  · next hsame => exact h.rewritten hs hv hsame hstores
  · next hne =>
    have hlt : s.expected < A.version s.object := lt_of_le_of_ne hsound.le_object (Ne.symm hne)
    have hreplay := hsound.continues hv
    refine ⟨?_, ?_, ?_⟩
    · intro k
      by_cases hk : k = A.key s.object
      · subst hk
        simp only [Function.update_self, hstores.own, hreplay, Option.map_some]
      · simp only [Function.update_of_ne hk, hstores.other k hk, h.stored k]
    · intro k hk
      by_cases hkey : k = A.key s.object
      · subst hkey
        simp only [Function.update_self, hreplay, Option.isSome_some]
      · simp only [ne_eq, Function.update_of_ne hkey] at hk ⊢
        exact h.lawful k hk
    · refine sessions_update (P := fun s => s.Sound A S _) ?_ fun worker' s' _ hs' =>
        (h.sessions worker' s' hs').written hv hlt hstores fun k hk => Function.update_of_ne hk _ _
      have hversion : ((S.load db (A.key s.object)).map A.version).getD 0 = A.version s.object := by
        rw [hstores.own]
        exact A.version_restored s.object
      refine ⟨hversion.ge, le_rfl, fun _ => ?_, fun _ _ => hstores.own⟩
      simp only [Function.update_self, List.append_nil]
      exact hreplay

theorem Serial.save (h : Serial A S w) {worker : ω} (hexact : Exact A S w (.save worker)) :
    Serial A S (Optimistic.step A S w (.save worker)) := by
  rw [Optimistic.step]
  cases hs : w.sessions worker with
  | none => exact h
  | some s =>
    obtain ⟨hcurrent, hstale⟩ := hexact s hs
    by_cases hv : w.version A S (A.key s.object) = s.expected
    · obtain ⟨db, hdb, hstores⟩ := hcurrent hv
      simp only [hdb]
      exact h.saved hs hv hstores
    · obtain ⟨e, he⟩ := hstale hv
      simp only [he]
      exact h

/-- What one step keeps. -/
theorem Serial.step (h : Serial A S w) {op : Op ω κ ι ε} (hexact : Exact A S w op) :
    Serial A S (Optimistic.step A S w op) := by
  cases op with
  | create worker k input => exact h.create worker k input
  | load worker k => exact h.load worker k
  | command worker e => exact h.command worker e
  | save worker => exact h.save hexact

theorem Serial.run (h : Serial A S w) {ops : List (Op ω κ ι ε)}
    (hexact : Meets (Optimistic.step A S) (Exact A S) w ops) :
    Serial A S (ops.foldl (Optimistic.step A S) w) :=
  hexact.foldl (I := Serial A S) (fun _ _ hok hserial => hserial.step hok) h

end Step

end Qualigence.Foundation.Optimistic
