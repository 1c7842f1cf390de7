import Mathlib.Algebra.GroupWithZero.Nat
import Mathlib.Data.Nat.Notation

/-! # Streams of frames

A stream is a number of frames one after the other, and arrives in pieces of any length. What has
arrived is some of the frames, and the beginning of the next one.
-/

namespace Qualigence.Foundation

variable {α : Type}

/-- How much of a frame there is at the end of the first `n` elements of a stream, given the lengths
of its frames. -/
def unfinished : List ℕ → ℕ → ℕ
  | [], n => n
  | length :: lengths, n => if n < length then n else unfinished lengths (n - length)

/-- A part that is not the whole next frame. After the last frame there is none. -/
def Partial (frames : List (List α)) (part : List α) : Prop :=
  match frames with
  | [] => part = []
  | frame :: _ => part.length < frame.length

/-- The frames that have arrived, the frames that have not, and the part of the next one. -/
structure Arrived (frames : List (List α)) (bytes later : List α) where
  whole : List (List α)
  rest : List (List α)
  part : List α
  frames_eq : frames = whole ++ rest
  bytes_eq : bytes = whole.flatten ++ part
  later_eq : part ++ later = rest.flatten
  partial_part : Partial rest part

theorem exists_arrived (frames : List (List α)) (bytes later : List α)
    (h : bytes ++ later = frames.flatten) : Nonempty (Arrived frames bytes later) := by
  induction frames generalizing bytes with
  | nil =>
    obtain ⟨rfl, rfl⟩ := List.append_eq_nil_iff.mp h
    exact ⟨⟨[], [], [], rfl, rfl, rfl, rfl⟩⟩
  | cons frame frames ih =>
    by_cases hlt : bytes.length < frame.length
    · exact ⟨⟨[], frame :: frames, bytes, rfl, rfl, h, hlt⟩⟩
    · rw [List.flatten_cons] at h
      have hb : bytes = frame ++ bytes.drop frame.length := by
        have ht := congrArg (List.take frame.length) h
        rw [List.take_left, List.take_append_of_le_length (by omega)] at ht
        rw [← ht, List.length_take, Nat.min_eq_left (by omega), List.take_append_drop]
      rw [hb, List.append_assoc] at h
      obtain ⟨a⟩ := ih _ (List.append_cancel_left h)
      refine ⟨⟨frame :: a.whole, a.rest, a.part, ?_, ?_, a.later_eq, a.partial_part⟩⟩
      · rw [List.cons_append, ← a.frames_eq]
      · rw [List.flatten_cons, List.append_assoc, ← a.bytes_eq, ← hb]

theorem unfinished_append (whole lengths : List ℕ) (n : ℕ) :
    unfinished (whole ++ lengths) (whole.sum + n) = unfinished lengths n := by
  induction whole with
  | nil => simp
  | cons length whole ih =>
    rw [List.cons_append, unfinished, List.sum_cons, if_neg (by omega), Nat.add_assoc,
      Nat.add_sub_cancel_left, ih]

theorem unfinished_partial {frames : List (List α)} {part : List α} (h : Partial frames part) :
    unfinished (frames.map List.length) part.length = part.length := by
  cases frames with
  | nil => rw [h]; rfl
  | cons frame frames => exact if_pos h

/-- The part that has arrived is as long as the count says. -/
theorem Arrived.length_part {frames : List (List α)} {bytes later : List α}
    (a : Arrived frames bytes later) :
    unfinished (frames.map List.length) bytes.length = a.part.length := by
  have hlength : bytes.length = (a.whole.map List.length).sum + a.part.length := by
    rw [← List.length_flatten, ← List.length_append, ← a.bytes_eq]
  have hframes := congrArg (List.map List.length) a.frames_eq
  rw [hlength, hframes, List.map_append, unfinished_append, unfinished_partial a.partial_part]

/-- No piece of a stream exceeds a bound together with the part of a frame that it finds. -/
def FitsWithin (bound : ℕ) (lengths : List ℕ) : ℕ → List (List α) → Prop
  | _, [] => True
  | n, piece :: pieces =>
    unfinished lengths n + piece.length ≤ bound ∧
      FitsWithin bound lengths (n + piece.length) pieces

instance decidableFitsWithin (bound : ℕ) (lengths : List ℕ) :
    (n : ℕ) → (pieces : List (List α)) → Decidable (FitsWithin bound lengths n pieces)
  | _, [] => isTrue trivial
  | n, piece :: pieces =>
    have : Decidable (FitsWithin bound lengths (n + piece.length) pieces) :=
      decidableFitsWithin bound lengths (n + piece.length) pieces
    inferInstanceAs (Decidable (_ ∧ _))

theorem fitsWithin_append {bound : ℕ} {whole lengths : List ℕ} {n : ℕ} {pieces : List (List α)} :
    FitsWithin bound (whole ++ lengths) (whole.sum + n) pieces ↔
      FitsWithin bound lengths n pieces := by
  induction pieces generalizing n with
  | nil => exact Iff.rfl
  | cons piece pieces ih =>
    rw [FitsWithin, FitsWithin, unfinished_append, Nat.add_assoc, ih]

end Qualigence.Foundation
