import Mathlib.Data.List.Dedup
import Mathlib.Data.List.Perm.Subperm
import Qualigence.Benchmark.Scorer
import Qualigence.Protocol.JsonParse

/-! # The attempt matrix

An accepted list of attempts has one attempt for every scenario and repetition, whatever the
order it is in, and the slot of an attempt tells its scenario and its repetition.
-/

namespace Qualigence.Benchmark

open Protocol

/-! ## Joined texts -/

/-- A text is split in one way at a mark that the second part does not contain. -/
theorem append_cons_inj {α : Type} {mark : α} {a b c d : List α} (hb : mark ∉ b) (hd : mark ∉ d)
    (h : a ++ mark :: b = c ++ mark :: d) : a = c ∧ b = d := by
  induction a generalizing c with
  | nil =>
    cases c with
    | nil => exact ⟨rfl, (List.cons.inj h).2⟩
    | cons e c =>
      obtain ⟨-, h⟩ := List.cons.inj h
      exact absurd (h ▸ List.mem_append_right c List.mem_cons_self) hb
  | cons e a ih =>
    cases c with
    | nil =>
      obtain ⟨-, h⟩ := List.cons.inj h
      exact absurd (h ▸ List.mem_append_right a List.mem_cons_self) hd
    | cons e' c =>
      obtain ⟨he, h⟩ := List.cons.inj h
      obtain ⟨rfl, rfl⟩ := ih h
      exact ⟨by rw [he], rfl⟩

theorem toList_joined (a b : String) : (joined a b).toList = a.toList ++ '\x00' :: b.toList := by
  simp [joined]

theorem joined_right_injective (a : String) : Function.Injective (joined a) := by
  intro b c h
  have ht := congrArg String.toList h
  rw [toList_joined, toList_joined] at ht
  exact String.toList_injective (List.cons.inj (List.append_cancel_left ht)).2

theorem nul_notMem_toString (n : ℕ) : '\x00' ∉ (toString n).toList := by
  intro h
  rw [Nat.toString_eq_repr, Nat.repr_eq_ofList_toDigits, String.toList_ofList] at h
  have hd := Nat.isDigit_of_mem_toDigits (by decide) (by decide) h
  exact absurd hd (by decide)

theorem toString_nat_injective : Function.Injective (toString : ℕ → String) := by
  intro n m h
  rw [Nat.toString_eq_repr, Nat.toString_eq_repr, Nat.repr_eq_ofList_toDigits,
    Nat.repr_eq_ofList_toDigits] at h
  have hd := String.ofList_injective h
  have hv := congrArg (fun ds => Nat.ofDigitChars 10 ds 0) hd
  simpa only [Nat.ofDigitChars_ten_toDigits] using hv

theorem slotKey_inj {s t : String} {n m : ℕ} (h : slotKey s n = slotKey t m) : s = t ∧ n = m := by
  have hl := congrArg String.toList h
  rw [slotKey, slotKey, toList_joined, toList_joined] at hl
  obtain ⟨hs, hn⟩ := append_cons_inj (nul_notMem_toString n) (nul_notMem_toString m) hl
  exact ⟨String.toList_injective hs, toString_nat_injective (String.toList_injective hn)⟩

/-! ## Complete matrices -/

variable {manifest : DetectionBenchmarkManifest} {attempts attempts' : List BenchmarkAttempt}

/-- An attempt at a slot of the manifest. -/
def Valid (manifest : DetectionBenchmarkManifest) (attempt : BenchmarkAttempt) : Prop :=
  scenarioMode manifest attempt.scenarioId = some attempt.mode ∧
    validRepetition manifest attempt = true

theorem checkAttempts_error {seen : List String} {e : BenchmarkError}
    (h : checkAttempts manifest seen attempts = .error e) :
    e.code = .benchmarkAttemptMatrixIncomplete := by
  induction attempts generalizing seen with
  | nil => cases h
  | cons a attempts ih =>
    rw [checkAttempts] at h
    split at h
    · cases h
      rfl
    split at h
    · cases h
      rfl
    split at h
    · cases h
      rfl
    split at h
    · cases h
      rfl
    exact ih h

theorem checkAttempts_ok {seen seen' : List String} :
    checkAttempts manifest seen attempts = .ok seen' ↔
      (∀ a ∈ attempts, Valid manifest a) ∧ (attempts.map (·.slot)).Nodup ∧
      (∀ a ∈ attempts, a.slot ∉ seen) ∧ seen' = (attempts.map (·.slot)).reverse ++ seen := by
  induction attempts generalizing seen with
  | nil =>
    simp only [checkAttempts, Except.ok.injEq, List.map_nil, List.reverse_nil, List.nil_append]
    exact ⟨fun h => ⟨nofun, List.nodup_nil, nofun, h.symm⟩, fun h => h.2.2.2.symm⟩
  | cons a attempts ih =>
    have hvalid : (∃ mode, scenarioMode manifest a.scenarioId = some mode ∧ a.mode = mode ∧
        validRepetition manifest a = true) ↔ Valid manifest a := by
      constructor
      · rintro ⟨mode, hm, rfl, hr⟩
        exact ⟨hm, hr⟩
      · rintro ⟨hm, hr⟩
        exact ⟨_, hm, rfl, hr⟩
    have hstep : checkAttempts manifest seen (a :: attempts) = .ok seen' ↔
        Valid manifest a ∧ a.slot ∉ seen ∧
          checkAttempts manifest (a.slot :: seen) attempts = .ok seen' := by
      rw [← hvalid, checkAttempts]
      split
      · next hnone => simp [hnone]
      · next mode hmode =>
        split
        · next hne =>
          refine ⟨nofun, ?_⟩
          rintro ⟨⟨mode', hm, he, -⟩, -⟩
          rw [hmode] at hm
          cases hm
          exact absurd he hne
        · next heq =>
          split
          · next hrep =>
            refine ⟨nofun, ?_⟩
            rintro ⟨⟨_, _, _, hr⟩, -⟩
            simp [hr] at hrep
          · next hrep =>
            split
            · next hseen => exact ⟨nofun, fun h => absurd hseen h.2.1⟩
            · next hseen =>
              refine ⟨fun h => ⟨⟨mode, hmode, Decidable.of_not_not heq, ?_⟩, hseen, h⟩,
                fun h => h.2.2⟩
              simpa using hrep
    rw [hstep, ih]
    constructor
    · rintro ⟨hv, hns, hvs, hnd, hnot, rfl⟩
      refine ⟨?_, ?_, ?_, by simp⟩
      · intro b hb
        obtain rfl | hb := List.mem_cons.mp hb
        · exact hv
        · exact hvs b hb
      · rw [List.map_cons, List.nodup_cons]
        refine ⟨?_, hnd⟩
        intro hm
        obtain ⟨b, hb, he⟩ := List.mem_map.mp hm
        exact hnot b hb (he ▸ List.mem_cons_self)
      · intro b hb
        obtain rfl | hb := List.mem_cons.mp hb
        · exact hns
        · exact fun hm => hnot b hb (List.mem_cons_of_mem _ hm)
    · rintro ⟨hv, hnd, hnot, rfl⟩
      rw [List.map_cons, List.nodup_cons] at hnd
      refine ⟨hv a List.mem_cons_self, hnot a List.mem_cons_self,
        fun b hb => hv b (List.mem_cons_of_mem _ hb), hnd.2, ?_, by simp⟩
      intro b hb hm
      obtain he | hm := List.mem_cons.mp hm
      · exact hnd.1 (he ▸ List.mem_map.mpr ⟨b, hb, rfl⟩)
      · exact hnot b (List.mem_cons_of_mem _ hb) hm

/-- One valid attempt for every expected slot. -/
structure Complete (manifest : DetectionBenchmarkManifest) (attempts : List BenchmarkAttempt) :
    Prop where
  valid : ∀ a ∈ attempts, Valid manifest a
  nodup : (attempts.map (·.slot)).Nodup
  length_eq : attempts.length = (expectedSlots manifest).length

theorem matrix_ok_iff :
    assertCompleteAttemptMatrix manifest attempts = .ok () ↔ Complete manifest attempts := by
  unfold assertCompleteAttemptMatrix
  cases hc : checkAttempts manifest [] attempts with
  | error e =>
    refine ⟨nofun, ?_⟩
    rintro ⟨hv, hn, -⟩
    have hok := checkAttempts_ok.mpr ⟨hv, hn, fun _ _ => List.not_mem_nil, rfl⟩
    rw [hc] at hok
    cases hok
  | ok seen =>
    obtain ⟨hv, hn, -, rfl⟩ := checkAttempts_ok.mp hc
    change (if _ then _ else _) = _ ↔ _
    simp only [List.append_nil, List.length_reverse, List.length_map]
    split
    · next hlen => exact ⟨nofun, fun h => absurd h.length_eq hlen⟩
    · next hlen => exact ⟨fun _ => ⟨hv, hn, Decidable.of_not_not hlen⟩, fun _ => rfl⟩

theorem matrix_error {e : BenchmarkError}
    (h : assertCompleteAttemptMatrix manifest attempts = .error e) :
    e.code = .benchmarkAttemptMatrixIncomplete := by
  unfold assertCompleteAttemptMatrix at h
  cases hc : checkAttempts manifest [] attempts with
  | error e' =>
    rw [hc] at h
    cases h
    exact checkAttempts_error hc
  | ok seen =>
    rw [hc] at h
    change (if _ then _ else _) = _ at h
    split at h
    · cases h
      rfl
    · cases h

theorem Complete.perm (h : Complete manifest attempts) (hp : attempts.Perm attempts') :
    Complete manifest attempts' where
  valid a ha := h.valid a (hp.mem_iff.mpr ha)
  nodup := (hp.map _).nodup_iff.mp h.nodup
  length_eq := hp.length_eq ▸ h.length_eq

/-! ## What a complete matrix holds -/

theorem mem_expectedSlots {slot : String} : slot ∈ expectedSlots manifest ↔
    ∃ id ∈ manifest.scenarioIds, ∃ i < manifest.referenceProfile.repetitions,
      slotKey id (i + 1) = slot := by
  simp [expectedSlots]

theorem scenarioId_of_mode {id : String} {mode : ScenarioMode}
    (h : scenarioMode manifest id = some mode) : id ∈ manifest.scenarioIds := by
  obtain ⟨s, hs, -⟩ := Option.map_eq_some_iff.mp h
  have hid := List.find?_some hs
  exact List.mem_map.mpr ⟨s, List.mem_reverse.mp (List.mem_of_find?_eq_some hs),
    of_decide_eq_true hid⟩

theorem Valid.scenarioId {a : BenchmarkAttempt} (h : Valid manifest a) :
    a.scenarioId ∈ manifest.scenarioIds := scenarioId_of_mode h.1

theorem Valid.repetition {a : BenchmarkAttempt} (h : Valid manifest a) :
    ∃ i < manifest.referenceProfile.repetitions, a.repetition = ((i + 1 : ℕ) : ℚ) := by
  have hr := h.2
  simp only [validRepetition, Bool.not_or, Bool.and_eq_true, Bool.not_eq_true',
    decide_eq_false_iff_not, Decidable.not_not, not_lt] at hr
  obtain ⟨⟨hlo, hhi⟩, hden⟩ := hr
  have hnum : ((a.repetition.num : ℤ) : ℚ) = a.repetition := Rat.coe_int_num_of_den_eq_one hden
  rw [← hnum] at hlo hhi
  have hlo' : 1 ≤ a.repetition.num := by exact_mod_cast hlo
  have hhi' : a.repetition.num ≤ (manifest.referenceProfile.repetitions : ℤ) := by
    exact_mod_cast hhi
  refine ⟨a.repetition.num.toNat - 1, by omega, ?_⟩
  have hz : a.repetition.num = ((a.repetition.num.toNat - 1 + 1 : ℕ) : ℤ) := by omega
  calc a.repetition = ((a.repetition.num : ℤ) : ℚ) := hnum.symm
    _ = (((a.repetition.num.toNat - 1 + 1 : ℕ) : ℤ) : ℚ) := congrArg Int.cast hz
    _ = ((a.repetition.num.toNat - 1 + 1 : ℕ) : ℚ) := Int.cast_natCast _

theorem slot_of_repetition {a : BenchmarkAttempt} {n : ℕ} (h : a.repetition = (n : ℚ)) :
    a.slot = slotKey a.scenarioId n := by
  rw [BenchmarkAttempt.slot, h, Rat.num_natCast, Int.toNat_natCast]

theorem Complete.slots_perm (h : Complete manifest attempts) :
    (attempts.map (·.slot)).Perm (expectedSlots manifest) := by
  apply List.Subperm.perm_of_length_le
  · refine List.subperm_of_subset h.nodup ?_
    intro slot hs
    obtain ⟨a, ha, rfl⟩ := List.mem_map.mp hs
    obtain ⟨i, hi, hr⟩ := (h.valid a ha).repetition
    rw [mem_expectedSlots]
    exact ⟨a.scenarioId, (h.valid a ha).scenarioId, i, hi, (slot_of_repetition hr).symm⟩
  · rw [List.length_map, h.length_eq]

/-- Every scenario has an attempt for every repetition. -/
theorem Complete.exists_attempt (h : Complete manifest attempts) {id : String}
    (hid : id ∈ manifest.scenarioIds) {i : ℕ}
    (hi : i < manifest.referenceProfile.repetitions) :
    ∃ a ∈ attempts, a.scenarioId = id ∧ a.repetition = ((i + 1 : ℕ) : ℚ) := by
  have hm : slotKey id (i + 1) ∈ attempts.map (·.slot) :=
    h.slots_perm.mem_iff.mpr (mem_expectedSlots.mpr ⟨id, hid, i, hi, rfl⟩)
  obtain ⟨a, ha, hs⟩ := List.mem_map.mp hm
  obtain ⟨j, hj, hr⟩ := (h.valid a ha).repetition
  rw [slot_of_repetition hr] at hs
  obtain ⟨hid', hn⟩ := slotKey_inj hs
  exact ⟨a, ha, hid', hn ▸ hr⟩

/-- Every scenario has as many attempts as there are repetitions. -/
theorem Complete.length_attemptsOf (h : Complete manifest attempts) {id : String}
    (hid : id ∈ manifest.scenarioIds) :
    (attemptsOf attempts id).length = manifest.referenceProfile.repetitions := by
  have hsub : ((attemptsOf attempts id).map (·.slot)).Nodup :=
    (List.Sublist.map _ List.filter_sublist).nodup h.nodup
  have hright : ((List.range manifest.referenceProfile.repetitions).map fun i =>
      slotKey id (i + 1)).Nodup := by
    refine List.nodup_range.map ?_
    intro i j hij
    have := (slotKey_inj hij).2
    omega
  have hperm : ((attemptsOf attempts id).map (·.slot)).Perm
      ((List.range manifest.referenceProfile.repetitions).map fun i => slotKey id (i + 1)) := by
    rw [List.perm_ext_iff_of_nodup hsub hright]
    intro slot
    constructor
    · intro hs
      obtain ⟨a, ha, rfl⟩ := List.mem_map.mp hs
      obtain ⟨ha, he⟩ := List.mem_filter.mp ha
      obtain ⟨i, hi, hr⟩ := (h.valid a ha).repetition
      refine List.mem_map.mpr ⟨i, List.mem_range.mpr hi, ?_⟩
      rw [slot_of_repetition hr, of_decide_eq_true he]
    · intro hs
      obtain ⟨i, hi, rfl⟩ := List.mem_map.mp hs
      obtain ⟨a, ha, hscen, hr⟩ := h.exists_attempt hid (List.mem_range.mp hi)
      refine List.mem_map.mpr ⟨a, List.mem_filter.mpr ⟨ha, decide_eq_true hscen⟩, ?_⟩
      rw [slot_of_repetition hr, hscen]
  have hlen := hperm.length_eq
  rwa [List.length_map, List.length_map, List.length_range] at hlen

/-! ## Single profiles -/

theorem profile_ok_iff {hash : String} : assertSingleProfile attempts = .ok hash ↔
    attempts ≠ [] ∧ ∀ a ∈ attempts, a.profileSha256 = hash := by
  cases attempts with
  | nil => exact ⟨nofun, fun h => absurd rfl h.1⟩
  | cons first rest =>
    rw [assertSingleProfile]
    split
    · next hany =>
      refine ⟨nofun, ?_⟩
      rintro ⟨-, hall⟩
      obtain ⟨a, ha, hne⟩ := List.any_eq_true.mp hany
      exact absurd ((hall a ha).trans (hall first List.mem_cons_self).symm)
        (of_decide_eq_true hne)
    · next hany =>
      constructor
      · intro h
        cases h
        refine ⟨List.cons_ne_nil _ _, ?_⟩
        intro a ha
        by_contra hne
        exact hany (List.any_eq_true.mpr ⟨a, ha, decide_eq_true hne⟩)
      · rintro ⟨-, hall⟩
        rw [hall first List.mem_cons_self]

theorem profile_error {e : BenchmarkError} (hne : attempts ≠ [])
    (h : assertSingleProfile attempts = .error e) : e.code = .referenceProfileMismatch := by
  cases attempts with
  | nil => exact absurd rfl hne
  | cons first rest =>
    rw [assertSingleProfile] at h
    split at h
    · cases h
      rfl
    · cases h

end Qualigence.Benchmark
