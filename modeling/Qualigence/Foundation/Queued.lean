import Mathlib.Data.List.AList

/-! # Maps with an insertion queue

A bounded store often keeps a map beside the queue of its keys in the order of their insertion,
so that the oldest entries can be dropped. The two are in step when they hold the same keys.
-/

namespace Qualigence.Foundation

variable {κ : Type u} {ν : Type v}

/-- A map beside the queue of its keys. -/
structure Queued (κ : Type u) (ν : Type v) where
  map : AList fun _ : κ => ν
  order : List κ

namespace Queued

def empty : Queued κ ν := ⟨∅, []⟩

/-- The number of entries of the map. -/
def len (q : Queued κ ν) : Nat := q.map.keys.length

/-- The map and the queue hold the same keys, none twice. -/
structure InStep (q : Queued κ ν) : Prop where
  nodup : q.order.Nodup
  mem_iff : ∀ k, k ∈ q.order ↔ k ∈ q.map

theorem inStep_empty : (empty : Queued κ ν).InStep where
  nodup := List.nodup_nil
  mem_iff k := by simp [empty]

theorem InStep.perm {q : Queued κ ν} (h : q.InStep) : q.order.Perm q.map.keys :=
  (List.perm_ext_iff_of_nodup h.nodup q.map.keys_nodup).mpr fun k => by
    rw [h.mem_iff, AList.mem_keys]

theorem InStep.length_eq {q : Queued κ ν} (h : q.InStep) : q.order.length = q.len :=
  h.perm.length_eq

section Keys

variable [DecidableEq κ]

def push (q : Queued κ ν) (k : κ) (v : ν) : Queued κ ν := ⟨q.map.insert k v, q.order ++ [k]⟩

def remove (q : Queued κ ν) (k : κ) : Queued κ ν :=
  ⟨q.map.erase k, q.order.filter fun k' => decide (k' ≠ k)⟩

/-- Drop keys from the front of the queue as long as a condition on the map and the front key
holds. -/
def dropFront (p : AList (fun _ : κ => ν) → κ → Bool) (m : AList fun _ : κ => ν) :
    List κ → Queued κ ν
  | [] => ⟨m, []⟩
  | k :: ks => if p m k then dropFront p (m.erase k) ks else ⟨m, k :: ks⟩

def dropWhile (q : Queued κ ν) (p : AList (fun _ : κ => ν) → κ → Bool) : Queued κ ν :=
  dropFront p q.map q.order


variable {q : Queued κ ν} {k k' : κ} {v : ν}

@[simp] theorem lookup_push : (q.push k v).map.lookup k' =
    if k' = k then some v else q.map.lookup k' := by
  unfold push
  split
  · next h =>
    subst h
    exact AList.lookup_insert q.map
  · next h => exact AList.lookup_insert_ne h

@[simp] theorem lookup_remove : (q.remove k).map.lookup k' =
    if k' = k then none else q.map.lookup k' := by
  unfold remove
  split
  · next h =>
    subst h
    exact AList.lookup_erase _ q.map
  · next h => exact AList.lookup_erase_ne h

theorem notMem_of_lookup (h : q.map.lookup k = none) : k ∉ q.map := AList.lookup_eq_none.mp h

theorem mem_of_lookup (h : q.map.lookup k = some v) : k ∈ q.map :=
  AList.lookup_isSome.mp (by rw [h]; rfl)

namespace InStep

theorem push (h : q.InStep) (hk : k ∉ q.map) : (q.push k v).InStep where
  nodup := by
    have hd : q.order.Disjoint [k] := by
      simpa using fun hm => hk ((h.mem_iff k).mp hm)
    exact h.nodup.append (List.nodup_singleton k) hd
  mem_iff k' := by
    rw [Queued.push, List.mem_append, List.mem_singleton, h.mem_iff, AList.mem_insert]
    exact or_comm

theorem remove (h : q.InStep) : (q.remove k).InStep where
  nodup := h.nodup.filter _
  mem_iff k' := by
    rw [Queued.remove, List.mem_filter, decide_eq_true_iff, h.mem_iff, AList.mem_erase]
    exact and_comm

/-- Dropping the front key from both sides. -/
theorem tail {m : AList fun _ : κ => ν} {ks : List κ} (h : InStep ⟨m, k :: ks⟩) :
    InStep ⟨m.erase k, ks⟩ where
  nodup := (List.nodup_cons.mp h.nodup).2
  mem_iff k' := by
    have hm : k' ∈ k :: ks ↔ k' ∈ m := h.mem_iff k'
    have hk : k ∉ ks := (List.nodup_cons.mp h.nodup).1
    rw [AList.mem_erase, ← hm, List.mem_cons]
    constructor
    · intro hks
      exact ⟨fun he => hk (he ▸ hks), Or.inr hks⟩
    · rintro ⟨hne, he | hks⟩
      · exact absurd he hne
      · exact hks

theorem dropFront {p : AList (fun _ : κ => ν) → κ → Bool} {m : AList fun _ : κ => ν}
    {order : List κ} (h : InStep ⟨m, order⟩) : (Queued.dropFront p m order).InStep := by
  induction order generalizing m with
  | nil => exact h
  | cons k ks ih =>
    rw [Queued.dropFront]
    split
    · exact ih h.tail
    · exact h

theorem dropWhile {p : AList (fun _ : κ => ν) → κ → Bool} (h : q.InStep) :
    (q.dropWhile p).InStep := h.dropFront

end InStep

theorem lookup_dropFront {p : AList (fun _ : κ => ν) → κ → Bool} {m : AList fun _ : κ => ν}
    {order : List κ} (h : (dropFront p m order).map.lookup k = some v) : m.lookup k = some v := by
  induction order generalizing m with
  | nil => exact h
  | cons k' ks ih =>
    rw [dropFront] at h
    split at h
    · have he := ih h
      by_cases hk : k = k'
      · rw [hk, AList.lookup_erase] at he
        cases he
      · rwa [AList.lookup_erase_ne hk] at he
    · exact h

/-- Dropping keys adds no entry and changes none. -/
theorem lookup_dropWhile {p : AList (fun _ : κ => ν) → κ → Bool}
    (h : (q.dropWhile p).map.lookup k = some v) : q.map.lookup k = some v := lookup_dropFront h

theorem lookup_dropWhile_none {p : AList (fun _ : κ => ν) → κ → Bool}
    (h : q.map.lookup k = none) : (q.dropWhile p).map.lookup k = none := by
  cases hl : (q.dropWhile p).map.lookup k with
  | none => rfl
  | some v =>
    rw [lookup_dropWhile hl] at h
    cases h

theorem len_erase_le (m : AList fun _ : κ => ν) (order : List κ) :
    (Queued.mk (m.erase k) order).len ≤ m.keys.length := by
  rw [len, AList.keys_erase]
  exact List.length_erase_le

theorem len_dropFront_le {p : AList (fun _ : κ => ν) → κ → Bool} (m : AList fun _ : κ => ν)
    (order : List κ) : (dropFront p m order).len ≤ m.keys.length := by
  induction order generalizing m with
  | nil => exact Nat.le_refl _
  | cons k ks ih =>
    rw [dropFront]
    split
    · exact Nat.le_trans (ih _) (len_erase_le m ks)
    · exact Nat.le_refl _

theorem len_dropWhile_le {p : AList (fun _ : κ => ν) → κ → Bool} : (q.dropWhile p).len ≤ q.len :=
  len_dropFront_le q.map q.order

theorem len_push (h : k ∉ q.map) : (q.push k v).len = q.len + 1 := by
  rw [len, push, AList.keys_insert, List.length_cons, len,
    List.erase_of_not_mem (by rwa [AList.mem_keys] at h)]

theorem len_remove_le : (q.remove k).len ≤ q.len := len_erase_le q.map _

/-- Dropping keys as long as the map has a certain size stops below it. -/
theorem len_dropFront_lt {size : Nat} (hs : 0 < size) {m : AList fun _ : κ => ν} {order : List κ}
    (h : InStep ⟨m, order⟩) :
    (dropFront (fun m _ => decide (size ≤ m.keys.length)) m order).len < size := by
  induction order generalizing m with
  | nil =>
    have hl := h.length_eq
    rw [dropFront]
    rw [← hl]
    exact hs
  | cons k ks ih =>
    rw [dropFront]
    split
    · exact ih h.tail
    · next hp =>
      have := of_decide_eq_false (Bool.eq_false_iff.mpr hp)
      change m.keys.length < size
      omega

end Keys

end Queued

end Qualigence.Foundation
