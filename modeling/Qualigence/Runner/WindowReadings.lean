import Qualigence.Runner.LeaseWindow
import Mathlib.Data.List.Induction

/-! # The readings of a lease window

A window is asked, renewed and closed at readings of the two clocks. The monotonic clock never
goes back, so a deadline that has passed stays passed; the wall clock may go back and return, and
the window keeps no record of it. The readings are whole numbers of one unit of time, which may be
as small as one likes.
-/

namespace Qualigence.Runner

/-- A call on a window, with what the clocks show then. -/
inductive WindowCall where
  | renew (monotonicNow wallNow : ℤ)
  | close
  | mayStartAction (monotonicNow wallNow : ℤ)
  | hasExpired (monotonicNow : ℤ)
  deriving DecidableEq

namespace WindowCall

/-- `mayStartAction` at some readings, beside the function of this name. -/
abbrev asked (monotonicNow wallNow : ℤ) : WindowCall := .mayStartAction monotonicNow wallNow

def monotonicReading : WindowCall → Option ℤ
  | renew monotonicNow _ => some monotonicNow
  | close => none
  | mayStartAction monotonicNow _ => some monotonicNow
  | hasExpired monotonicNow => some monotonicNow

def isRenewal : WindowCall → Bool
  | renew _ _ => true
  | _ => false

/-- The readings that a window counts from, which a renewal sets. -/
def origin (readings : ℤ × ℤ) : WindowCall → ℤ × ℤ
  | renew monotonicNow wallNow => (monotonicNow, wallNow)
  | _ => readings

theorem origin_of_not_renewal {readings : ℤ × ℤ} {c : WindowCall} (h : c.isRenewal = false) :
    origin readings c = readings := by
  cases c with
  | renew m w => cases h
  | close => rfl
  | mayStartAction m w => rfl
  | hasExpired m => rfl

theorem foldl_origin_of_not_renewal {readings : ℤ × ℤ} {calls : List WindowCall}
    (h : ∀ c ∈ calls, c.isRenewal = false) : calls.foldl origin readings = readings := by
  induction calls with
  | nil => rfl
  | cons c calls ih =>
    rw [List.foldl_cons, origin_of_not_renewal (h c List.mem_cons_self)]
    exact ih fun d hd => h d (List.mem_cons_of_mem c hd)

end WindowCall

namespace LeaseWindow

open WindowCall

variable (o : LeaseOptions)

theorem mayStartAction_iff {w : LeaseWindow} {monotonicNow wallNow : ℤ} :
    w.mayStartAction monotonicNow wallNow = true ↔
      w.closed = false ∧ monotonicNow < w.deadlineMonotonic ∧ w.baselineWall ≤ wallNow := by
  unfold mayStartAction
  cases w.closed <;> simp

def next (w : LeaseWindow) : WindowCall → LeaseWindow
  | .renew monotonicNow wallNow => w.renew o monotonicNow wallNow
  | .close => w.close
  | .mayStartAction _ _ => w
  | .hasExpired _ => w

/-- The window for a lease that was received at the given readings, after some calls. -/
def after (received : ℤ × ℤ) (calls : List WindowCall) : LeaseWindow :=
  calls.foldl (next o) (.received o received.1 received.2)

/-- The readings that a window counts from after some calls. -/
def originAfter (received : ℤ × ℤ) (calls : List WindowCall) : ℤ × ℤ :=
  calls.foldl origin received

/-- The deadline for starting an action, in a window that counts from a reading. -/
def deadlineFrom (monotonicNow : ℤ) : ℤ :=
  monotonicNow + o.leaseDurationMs - o.actionDeadlineSafetyMarginMs

/-! ## Histories -/

/-- Between two successful renewals a refused action is followed by no permitted one. -/
def StaysShut (received : ℤ × ℤ) (calls : List WindowCall) : Prop :=
  ∀ (earlier : List WindowCall) (m w : ℤ) (between : List WindowCall) (m' w' : ℤ)
    (later : List WindowCall),
    calls = earlier ++ asked m w :: (between ++ asked m' w' :: later) →
    (∀ c ∈ between, c.isRenewal = false) →
    (after o received earlier).mayStartAction m w = false →
    (after o received (earlier ++ asked m w :: between)).mayStartAction m' w' = false

/-- Once it is closed a window permits no action, whatever renewals follow. -/
def StaysClosed (received : ℤ × ℤ) (calls : List WindowCall) : Prop :=
  ∀ (earlier : List WindowCall) (m w : ℤ) (later : List WindowCall),
    calls = earlier ++ asked m w :: later → .close ∈ earlier →
    (after o received earlier).mayStartAction m w = false

/-- Before the deadline of an open window a wall clock that shows less than at the last renewal is
not seen to have returned. -/
def WallStaysBack (received : ℤ × ℤ) (calls : List WindowCall) : Prop :=
  ∀ (earlier : List WindowCall) (m w : ℤ) (between : List WindowCall) (m' w' : ℤ)
    (later : List WindowCall),
    calls = earlier ++ asked m w :: (between ++ asked m' w' :: later) →
    (∀ c ∈ between, c.isRenewal = false) → .close ∉ earlier → .close ∉ between →
    m' < deadlineFrom o (originAfter received earlier).1 →
    w < (originAfter received earlier).2 → w' < (originAfter received earlier).2

variable {o} {received : ℤ × ℤ} {calls : List WindowCall}

theorem after_concat (c : WindowCall) :
    after o received (calls ++ [c]) = (after o received calls).next o c := by
  rw [after, List.foldl_append]
  rfl

theorem originAfter_concat (c : WindowCall) :
    originAfter received (calls ++ [c]) = origin (originAfter received calls) c := by
  rw [originAfter, List.foldl_append]
  rfl

/-- A window counts from its last renewal, and that it was closed is never forgotten. -/
theorem after_spec : (after o received calls).deadlineMonotonic =
      deadlineFrom o (originAfter received calls).1 ∧
    (after o received calls).baselineWall = (originAfter received calls).2 ∧
    ((after o received calls).closed = true ↔ .close ∈ calls) := by
  induction calls using List.reverseRecOn with
  | nil => exact ⟨rfl, rfl, by simp [after, LeaseWindow.received]⟩
  | append_singleton calls c ih =>
    obtain ⟨hd, hb, hc⟩ := ih
    rw [after_concat, originAfter_concat]
    cases c with
    | renew m w => exact ⟨rfl, rfl, by simpa [next, renew] using hc⟩
    | close => exact ⟨hd, hb, by simp [next, LeaseWindow.close]⟩
    | mayStartAction m w => exact ⟨hd, hb, by simpa [next] using hc⟩
    | hasExpired m => exact ⟨hd, hb, by simpa [next] using hc⟩

theorem permits_iff {m w : ℤ} : (after o received calls).mayStartAction m w = true ↔
    .close ∉ calls ∧ m < deadlineFrom o (originAfter received calls).1 ∧
      (originAfter received calls).2 ≤ w := by
  obtain ⟨hd, hb, hc⟩ := @after_spec o received calls
  rw [mayStartAction_iff, hd, hb, ← hc, Bool.not_eq_true]

theorem staysClosed : StaysClosed o received calls := by
  intro earlier m w later _ hclose
  by_contra h
  exact (permits_iff.mp (Bool.not_eq_false _ ▸ h)).1 hclose

/-- Two questions with no renewal between them are asked of the same deadline and wall clock. -/
theorem originAfter_between {earlier between : List WindowCall} {m w : ℤ}
    (h : ∀ c ∈ between, c.isRenewal = false) :
    originAfter received (earlier ++ asked m w :: between) =
      originAfter received earlier := by
  rw [originAfter, List.foldl_append, List.foldl_cons]
  exact foldl_origin_of_not_renewal h

/-- The later of two questions has the later reading of the monotonic clock. -/
theorem monotonic_le {earlier between later : List WindowCall} {m w m' w' : ℤ}
    (h : (calls.filterMap monotonicReading).Pairwise (· ≤ ·))
    (hc : calls = earlier ++ asked m w :: (between ++ asked m' w' :: later)) :
    m ≤ m' := by
  have ht : (m :: (between ++ asked m' w' :: later).filterMap
      monotonicReading).Pairwise (· ≤ ·) := by
    rw [hc, List.filterMap_append] at h
    exact (List.pairwise_append.mp h).2.1
  apply (List.pairwise_cons.mp ht).1 m'
  rw [List.filterMap_append]
  exact List.mem_append_right _ List.mem_cons_self

/-- With a monotonic clock that does not go back, a window that has refused an action stays shut
until its next renewal exactly when the wall clock, once behind, is not seen to return before the
deadline; a closed window stays closed in any case. -/
theorem refusals_last_iff (o : LeaseOptions) (received : ℤ × ℤ) (calls : List WindowCall)
    (hclock : (received.1 :: calls.filterMap monotonicReading).Pairwise (· ≤ ·)) :
    (StaysShut o received calls ∧ StaysClosed o received calls) ↔
      WallStaysBack o received calls := by
  rw [and_iff_left staysClosed]
  have hmono := (List.pairwise_cons.mp hclock).2
  constructor
  · intro h earlier m w between m' w' later hc hbetween hopen hopen' hdeadline hback
    by_contra hreturned
    have hrefused : (after o received earlier).mayStartAction m w = false := by
      by_contra hp
      have := (permits_iff.mp (Bool.not_eq_false _ ▸ hp)).2.2
      omega
    have hshut := h earlier m w between m' w' later hc hbetween hrefused
    have hp : (after o received (earlier ++ asked m w :: between)).mayStartAction m' w' =
        true := by
      rw [permits_iff, originAfter_between hbetween]
      refine ⟨?_, hdeadline, Int.not_lt.mp hreturned⟩
      simp [hopen, hopen']
    rw [hshut] at hp
    cases hp
  · intro h earlier m w between m' w' later hc hbetween hrefused
    by_contra hp
    obtain ⟨hopen, hdeadline, hwall⟩ := permits_iff.mp (Bool.not_eq_false _ ▸ hp)
    rw [originAfter_between hbetween] at hdeadline hwall
    rw [List.mem_append, List.mem_cons, not_or, not_or] at hopen
    obtain ⟨hopen, -, hopen'⟩ := hopen
    have hle := monotonic_le hmono hc
    have hback : w < (originAfter received earlier).2 := by
      by_contra hw
      have hp' := permits_iff.mpr
        ⟨hopen, Int.lt_of_le_of_lt hle hdeadline, Int.not_lt.mp hw⟩
      rw [hrefused] at hp'
      cases hp'
    have := h earlier m w between m' w' later hc hbetween hopen hopen' hdeadline hback
    omega

/-- A lease of a minute with a margin of five seconds. -/
def minuteLease : LeaseOptions := ⟨60000, 5000, 0, 0⟩

theorem refusals_last_iff_forward :
    (StaysShut minuteLease (1000, 100000)
        [.asked 2000 90000, .renew 3000 90000, .asked 4000 91000] ∧
      StaysClosed minuteLease (1000, 100000)
        [.asked 2000 90000, .renew 3000 90000, .asked 4000 91000]) ↔
      WallStaysBack minuteLease (1000, 100000)
        [.asked 2000 90000, .renew 3000 90000, .asked 4000 91000] :=
  refusals_last_iff minuteLease (1000, 100000) _ (by decide)

/-- The wall clock goes back and returns, and an action is permitted after one was refused. -/
theorem returned_wall_clock_reopens :
    ((1000 : ℤ) :: [WindowCall.asked 2000 90000, .asked 3000 100000].filterMap
      monotonicReading).Pairwise (· ≤ ·) ∧
    ¬ StaysShut minuteLease (1000, 100000) [.asked 2000 90000, .asked 3000 100000] := by
  constructor
  · decide
  · intro h
    have hshut := h [] 2000 90000 [] 3000 100000 [] rfl nofun (by decide)
    exact absurd hshut (by decide)

end LeaseWindow

end Qualigence.Runner
