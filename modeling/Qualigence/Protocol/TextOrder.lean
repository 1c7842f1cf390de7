import Qualigence.Protocol.Value

/-! # The order of texts

Texts are sorted by their UTF-16 code units. The code units determine the text, so that the order
is a linear one and the sorted list does not depend on the order that the texts came in.
-/

namespace Qualigence.Protocol

/-- The code units of a character. -/
def utf16Units (c : Char) : List ℕ :=
  if c.toNat < 0x10000 then [c.toNat]
  else [0xD800 + (c.toNat - 0x10000) / 0x400, 0xDC00 + (c.toNat - 0x10000) % 0x400]

theorem utf16_eq (s : String) : utf16 s = s.toList.flatMap utf16Units := rfl

theorem not_surrogate (c : Char) : c.toNat < 0xD800 ∨ 0xDFFF < c.toNat ∧ c.toNat < 0x110000 :=
  c.valid

/-- The first character and the rest are read off the code units. -/
theorem utf16Units_append_inj {c d : Char} {rest rest' : List ℕ}
    (h : utf16Units c ++ rest = utf16Units d ++ rest') : c = d ∧ rest = rest' := by
  have hc := not_surrogate c
  have hd := not_surrogate d
  have key : c.toNat = d.toNat ∧ rest = rest' := by
    unfold utf16Units at h
    split at h <;> split at h <;>
      simp only [List.cons_append, List.nil_append, List.cons.injEq] at h
    · exact h
    · omega
    · omega
    · obtain ⟨h₁, h₂, h₃⟩ := h
      exact ⟨by omega, h₃⟩
  exact ⟨Char.toNat_inj.mp key.1, key.2⟩

theorem utf16Units_ne_nil (c : Char) : utf16Units c ≠ [] := by
  unfold utf16Units
  split <;> simp

theorem flatMap_utf16Units_injective {cs ds : List Char}
    (h : cs.flatMap utf16Units = ds.flatMap utf16Units) : cs = ds := by
  induction cs generalizing ds with
  | nil =>
    cases ds with
    | nil => rfl
    | cons d ds =>
      rw [List.flatMap_nil, List.flatMap_cons] at h
      exact absurd (List.append_eq_nil_iff.mp h.symm).1 (utf16Units_ne_nil d)
  | cons c cs ih =>
    cases ds with
    | nil =>
      rw [List.flatMap_nil, List.flatMap_cons] at h
      exact absurd (List.append_eq_nil_iff.mp h).1 (utf16Units_ne_nil c)
    | cons d ds =>
      rw [List.flatMap_cons, List.flatMap_cons] at h
      obtain ⟨rfl, hrest⟩ := utf16Units_append_inj h
      rw [ih hrest]

theorem utf16_injective : Function.Injective utf16 := fun _ _ h =>
  String.toList_injective (flatMap_utf16Units_injective h)

theorem utf16Le_iff {s t : String} : utf16Le s t = true ↔ utf16 s ≤ utf16 t :=
  decide_eq_true_iff

section Sorting

variable {α : Type*} (key : α → String)

/-- Sorting by the texts of the elements forgets the order that they came in, when different
elements have different texts. -/
theorem insertionSort_eq_of_perm_of_key {xs ys : List α} (h : xs.Perm ys)
    (hkey : ∀ x ∈ xs, ∀ y ∈ xs, key x = key y → x = y) :
    (xs.insertionSort fun x y => utf16Le (key x) (key y)) =
      ys.insertionSort fun x y => utf16Le (key x) (key y) := by
  have htotal : Std.Total fun x y => utf16Le (key x) (key y) = true :=
    ⟨fun x y => by
      rw [utf16Le_iff, utf16Le_iff]
      exact le_total (utf16 (key x)) (utf16 (key y))⟩
  have htrans : IsTrans α fun x y => utf16Le (key x) (key y) = true :=
    ⟨fun x y z hxy hyz => by
      rw [utf16Le_iff] at hxy hyz ⊢
      exact le_trans hxy hyz⟩
  refine List.Perm.eq_of_pairwise ?_ (List.pairwise_insertionSort _ _)
    (List.pairwise_insertionSort _ _) ?_
  · intro x y hx hy hxy hyx
    have hu : utf16 (key x) = utf16 (key y) :=
      le_antisymm (utf16Le_iff.mp hxy) (utf16Le_iff.mp hyx)
    exact hkey x ((List.mem_insertionSort _).mp hx)
      y (h.mem_iff.mpr ((List.mem_insertionSort _).mp hy)) (utf16_injective hu)
  · exact (List.perm_insertionSort _ _).trans (h.trans (List.perm_insertionSort _ _).symm)

end Sorting

/-- Sorting forgets the order that the texts came in. -/
theorem insertionSort_eq_of_perm {texts texts' : List String} (h : texts.Perm texts') :
    (texts.insertionSort fun s t => utf16Le s t) =
      texts'.insertionSort fun s t => utf16Le s t :=
  insertionSort_eq_of_perm_of_key id h fun _ _ _ _ hst => hst

end Qualigence.Protocol
