import Mathlib.Algebra.Order.Group.Nat
import Mathlib.Data.List.Sort
import Mathlib.Tactic.Ring

/-! # Tiles of a buffer

A buffer of a given size is cut at the multiples of a step. Tiles that lie at distinct cuts
and reach up to the next cut or to the end are disjoint, a position is in the tile of its
cut or in none, and writing all of them into a buffer gives their concatenation.
-/

namespace Qualigence.Foundation

/-- The cuts from `start` on: `for (offset = start; offset < size; offset += step)`. -/
def cutsFrom (size step : ℕ) : ℕ → ℕ → List ℕ
  | 0, _ => []
  | fuel + 1, start => if start < size then start :: cutsFrom size step fuel (start + step) else []

/-- All cuts of a buffer; for a positive step the loop ends within `size` rounds. -/
def cuts (size step : ℕ) : List ℕ := cutsFrom size step size 0

/-- Overwrite a part of a buffer that lies inside it. -/
def overwrite {α : Type*} (buffer : List α) (offset : ℕ) (bytes : List α) : List α :=
  buffer.take offset ++ bytes ++ buffer.drop (offset + bytes.length)

/-- The length of the tile at a cut. -/
def tileLength (size step offset : ℕ) : ℕ := min step (size - offset)

section Cuts

variable {size step : ℕ}

theorem mem_cutsFrom (hs : 0 < step) {fuel start : ℕ} (hf : size ≤ start + fuel) {n : ℕ} :
    n ∈ cutsFrom size step fuel start ↔ n < size ∧ ∃ k, n = start + k * step := by
  induction fuel generalizing start with
  | zero =>
    simp only [cutsFrom, List.not_mem_nil, false_iff, not_and, not_exists]
    intro hn k hk
    omega
  | succ fuel ih =>
    unfold cutsFrom
    split
    · next hlt =>
      rw [List.mem_cons, ih (by omega)]
      constructor
      · rintro (rfl | ⟨hn, k, rfl⟩)
        · exact ⟨hlt, 0, by ring⟩
        · exact ⟨hn, k + 1, by ring⟩
      · rintro ⟨hn, k, rfl⟩
        cases k with
        | zero => exact .inl (by ring)
        | succ k => exact .inr ⟨hn, k, by ring⟩
    · next hge =>
      simp only [List.not_mem_nil, false_iff, not_and, not_exists]
      intro hn k hk
      omega

theorem mem_cuts (hs : 0 < step) {n : ℕ} : n ∈ cuts size step ↔ n < size ∧ step ∣ n := by
  rw [cuts, mem_cutsFrom hs (by omega)]
  refine and_congr_right fun _ => ⟨?_, ?_⟩
  · rintro ⟨k, rfl⟩
    exact ⟨k, by ring⟩
  · rintro ⟨k, rfl⟩
    exact ⟨k, by ring⟩

theorem le_of_mem_cutsFrom {fuel start n : ℕ} (h : n ∈ cutsFrom size step fuel start) :
    start ≤ n := by
  induction fuel generalizing start with
  | zero => cases h
  | succ fuel ih =>
    unfold cutsFrom at h
    split at h
    · rcases List.mem_cons.mp h with rfl | h
      · exact le_rfl
      · have hle := ih h
        omega
    · cases h

/-- Between two cuts lies at least a step. -/
theorem pairwise_cutsFrom (fuel start : ℕ) :
    (cutsFrom size step fuel start).Pairwise (fun m n => m + step ≤ n) := by
  induction fuel generalizing start with
  | zero => exact .nil
  | succ fuel ih =>
    unfold cutsFrom
    split
    · refine List.pairwise_cons.mpr ⟨fun n hn => ?_, ih _⟩
      exact le_of_mem_cutsFrom hn
    · exact .nil

/-- A position lies in the tile of one cut only. -/
theorem cut_eq_of_mem {offset b : ℕ} (hd : step ∣ offset) (h1 : offset ≤ b)
    (h2 : b < offset + tileLength size step offset) : offset = b / step * step := by
  obtain ⟨k, rfl⟩ := hd
  have hlt : b < step * k + step := by
    unfold tileLength at h2
    omega
  have hk : b / step = k := by
    refine Nat.div_eq_of_lt_le ?_ ?_
    · rw [mul_comm]
      exact h1
    · rw [Nat.succ_mul, mul_comm]
      exact hlt
  rw [hk, mul_comm]

/-- Every position of the buffer lies in the tile of its cut. -/
theorem mem_tile_of_lt (hs : 0 < step) {b : ℕ} (hb : b < size) :
    b / step * step ≤ b ∧ b < b / step * step + tileLength size step (b / step * step) := by
  have h1 : b / step * step ≤ b := Nat.div_mul_le_self b step
  have h2 : b < b / step * step + step := Nat.lt_div_mul_add hs
  refine ⟨h1, ?_⟩
  unfold tileLength
  omega

end Cuts

section Overwrite

variable {α : Type*} {size step : ℕ}

/-- Tiles that follow each other from `start` to the end of the buffer. -/
def Tiling (size : ℕ) : ℕ → List (ℕ × List α) → Prop
  | start, [] => start = size
  | start, (offset, bytes) :: tiles => offset = start ∧ Tiling size (start + bytes.length) tiles

theorem Tiling.start_le {start : ℕ} {tiles : List (ℕ × List α)} (h : Tiling size start tiles) :
    start ≤ size := by
  induction tiles generalizing start with
  | nil => exact h.le
  | cons tile tiles ih =>
    have := ih h.2
    omega

/-- Writing the tiles into a buffer gives what is before them and their concatenation. -/
theorem Tiling.foldl_overwrite {start : ℕ} {tiles : List (ℕ × List α)}
    (h : Tiling size start tiles) {buffer : List α} (hb : buffer.length = size) :
    tiles.foldl (fun b tile => overwrite b tile.1 tile.2) buffer =
      buffer.take start ++ tiles.flatMap (·.2) := by
  induction tiles generalizing start buffer with
  | nil =>
    have hs : start = size := h
    rw [List.foldl_nil, List.flatMap_nil, List.append_nil, hs, ← hb, List.take_length]
  | cons tile tiles ih =>
    obtain ⟨offset, bytes⟩ := tile
    obtain ⟨rfl, hrest⟩ := h
    have hle := hrest.start_le
    have htake : (buffer.take offset).length = offset := by
      rw [List.length_take]
      omega
    have hlen : (overwrite buffer offset bytes).length = size := by
      unfold overwrite
      rw [List.length_append, List.length_append, List.length_drop, htake]
      omega
    rw [List.foldl_cons, ih hrest hlen, List.flatMap_cons]
    have hpre : (overwrite buffer offset bytes).take (offset + bytes.length) =
        buffer.take offset ++ bytes := by
      unfold overwrite
      refine List.take_left' ?_
      rw [List.length_append, htake]
    rw [hpre, List.append_assoc]

theorem Tiling.length_flatMap {start : ℕ} {tiles : List (ℕ × List α)}
    (h : Tiling size start tiles) : start + (tiles.flatMap (·.2)).length = size := by
  induction tiles generalizing start with
  | nil => exact h
  | cons tile tiles ih =>
    have := ih h.2
    rw [List.flatMap_cons, List.length_append]
    omega

/-- Empty tiles at the start fill an empty buffer. -/
theorem tiling_zero {tiles : List (ℕ × List α)}
    (h : ∀ tile ∈ tiles, tile.1 = 0 ∧ tile.2.length = 0) : Tiling 0 0 tiles := by
  induction tiles with
  | nil => rfl
  | cons tile tiles ih =>
    obtain ⟨ho, hl⟩ := h tile List.mem_cons_self
    refine ⟨ho, ?_⟩
    rw [hl]
    exact ih fun t ht => h t (List.mem_cons_of_mem _ ht)

/-- Tiles at all cuts, each up to the next one, follow each other. -/
theorem tiling_of_cutsFrom (hs : 0 < step) {fuel start : ℕ} (hf : size ≤ start + fuel)
    {tiles : List (ℕ × List α)} (hc : tiles.map (·.1) = cutsFrom size step fuel start)
    (hl : ∀ tile ∈ tiles, tile.2.length = tileLength size step tile.1) :
    Tiling size (min start size) tiles := by
  induction fuel generalizing start tiles with
  | zero =>
    rw [cutsFrom, List.map_eq_nil_iff] at hc
    subst hc
    exact Nat.min_eq_right (by omega)
  | succ fuel ih =>
    unfold cutsFrom at hc
    split at hc
    · next hlt =>
      obtain ⟨tile, rest, rfl, rfl, hrest⟩ := List.map_eq_cons_iff.mp hc
      refine ⟨(Nat.min_eq_left hlt.le).symm, ?_⟩
      have htail := ih (by omega) hrest fun t ht => hl t (List.mem_cons_of_mem _ ht)
      have hlen := hl tile List.mem_cons_self
      unfold tileLength at hlen
      have he : min tile.1 size + tile.2.length = min (tile.1 + step) size := by omega
      rw [he]
      exact htail
    · next hge =>
      rw [List.map_eq_nil_iff] at hc
      subst hc
      exact Nat.min_eq_right (by omega)

theorem tiling_of_cuts (hs : 0 < step) {tiles : List (ℕ × List α)}
    (hc : tiles.map (·.1) = cuts size step)
    (hl : ∀ tile ∈ tiles, tile.2.length = tileLength size step tile.1) :
    Tiling size 0 tiles := by
  have h := tiling_of_cutsFrom hs (by omega) hc hl
  rwa [Nat.zero_min] at h

/-- The slices of a list from all cuts on, each a step long, are the list. -/
theorem flatMap_cutsFrom (hs : 0 < step) {bytes : List α} {fuel start : ℕ}
    (hf : bytes.length ≤ start + fuel) :
    ((cutsFrom bytes.length step fuel start).flatMap fun offset =>
      (bytes.drop offset).take step) = bytes.drop start := by
  induction fuel generalizing start with
  | zero =>
    rw [cutsFrom, List.flatMap_nil, List.drop_eq_nil_of_le (by omega)]
  | succ fuel ih =>
    unfold cutsFrom
    split
    · rw [List.flatMap_cons, ih (by omega), ← List.drop_drop, List.take_append_drop]
    · next hge => rw [List.flatMap_nil, List.drop_eq_nil_of_le (by omega)]

theorem flatMap_cuts (hs : 0 < step) (bytes : List α) :
    ((cuts bytes.length step).flatMap fun offset => (bytes.drop offset).take step) = bytes :=
  flatMap_cutsFrom hs (by omega)

end Overwrite

end Qualigence.Foundation
