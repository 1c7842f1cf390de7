import Mathlib.Data.List.Forall2
import Qualigence.Foundation.Program

/-! # Linear resources of programs

A program gets a unit of a resource with the reply to some operations and spends it with
other operations. A program is linear when it spends only what it holds. Whatever turns
linear programs take on a shared state, the units that they hold and those that were spent
are no more than the units that were handed out.
-/

namespace Qualigence.Foundation

/-- Which replies hand out a unit of a resource, and which operations spend one. -/
structure Resource (S : Signature) (ε : Type) where
  acquires : (op : S.Op) → Except ε (S.Reply op) → Bool
  spends : S.Op → Bool

namespace Program

variable {S : Signature} {ε α β σ ι : Type} (R : Resource S ε)

/-- Whether the program holds a unit after an operation. -/
def heldAfter (held : Bool) (op : S.Op) (r : Except ε (S.Reply op)) : Bool :=
  R.acquires op r || (held && !R.spends op)

/-- From what it holds now, the program spends only what it holds, and ends in `Q`. -/
def Linear (Q : Bool → α → Prop) : Bool → Program S ε α → Prop
  | held, pure a => Q held a
  | _, throw _ => True
  | held, call op next => (R.spends op = true → held = true) ∧
      ∀ r, Linear Q (heldAfter R held op r) (next r)

variable {R} {Q : Bool → β → Prop} {held : Bool}

theorem linear_bind {p : Program S ε α} {f : α → Program S ε β}
    (hp : Linear R (fun h a => Linear R Q h (f a)) held p) : Linear R Q held (p.bind f) := by
  induction p generalizing held with
  | pure a => exact hp
  | throw e => trivial
  | call op next ih => exact ⟨hp.1, fun r => ih r (hp.2 r)⟩

theorem linear_perform {op : S.Op} {Q : Bool → S.Reply op → Prop}
    (hs : R.spends op = true → held = true)
    (hr : ∀ r, Q (heldAfter R held op (.ok r)) r) : Linear R Q held (perform op) := by
  refine ⟨hs, fun r => ?_⟩
  cases r with
  | ok a => exact hr a
  | error e => trivial

/-- Operations that hand out nothing and spend nothing leave what a program holds. -/
theorem linear_of_uses {p : Program S ε α} {Q : Bool → α → Prop}
    (hp : p.Uses fun op => R.spends op = false ∧ ∀ r, R.acquires op r = false)
    (hQ : ∀ a, Q held a) : Linear R Q held p := by
  induction p with
  | pure a => exact hQ a
  | throw e => trivial
  | call op next ih =>
    obtain ⟨⟨hs, ha⟩, hn⟩ := hp
    refine ⟨fun h => ?_, fun r => ?_⟩
    · rw [hs] at h
      cases h
    · have hheld : heldAfter R held op r = held := by
        rw [heldAfter, ha r, hs]
        simp
      rw [hheld]
      exact ih r (hn r)

end Program

namespace Pool

variable {S : Signature} {ε α σ ι : Type}

/-- What the programs of a pool hold, with what was spent, is no more than was acquired. -/
def Accounted (R : Resource S ε) (acquired spent : σ → ℕ) (Q : ι → Bool → α → Prop)
    (p : Pool S ε α σ ι) : Prop :=
  ∃ held : List Bool,
    List.Forall₂ (fun b (x : ι × Program S ε α) => x.2.Linear R (Q x.1) b) held p.threads ∧
    held.count true + spent p.shared ≤ acquired p.shared

variable {R : Resource S ε} {acquired spent : σ → ℕ} {Q : ι → Bool → α → Prop}
  {h : Handler S ε σ} {body : ι → Program S ε α} {p : Pool S ε α σ ι}

/-- An operation spends at most one unit, and the state counts the units it hands out. -/
structure Counts (R : Resource S ε) (h : Handler S ε σ) (acquired spent : σ → ℕ) : Prop where
  acquired : ∀ op s, acquired s + (R.acquires op (h op s).1).toNat ≤ acquired (h op s).2
  spent : ∀ op s, spent (h op s).2 ≤ spent s + (R.spends op).toNat

theorem heldAfter_toNat_le {held : Bool} {op : S.Op} {r : Except ε (S.Reply op)}
    (hs : R.spends op = true → held = true) :
    (Program.heldAfter R held op r).toNat + (R.spends op).toNat ≤
      held.toNat + (R.acquires op r).toNat := by
  unfold Program.heldAfter
  cases hsp : R.spends op
  · cases R.acquires op r <;> cases held <;> simp
  · rw [hs hsp]
    cases R.acquires op r <;> simp

theorem forall₂_set {A B : Type} {rel : A → B → Prop} {as : List A} {bs : List B} {i : ℕ}
    {a : A} {b : B} (h : List.Forall₂ rel as bs) (hab : rel a b) :
    List.Forall₂ rel (as.set i a) (bs.set i b) := by
  induction h generalizing i with
  | nil => exact .nil
  | cons hxy hrest ih =>
    cases i with
    | zero => exact .cons hab hrest
    | succ i => exact .cons hxy ih

theorem Accounted.step (hc : Counts R h acquired spent)
    (hbody : ∀ r, (body r).Linear R (Q r) false) (hp : Accounted R acquired spent Q p)
    (t : Turn ι) : Accounted R acquired spent Q (p.step h body t) := by
  obtain ⟨held, hall, hcount⟩ := hp
  cases t with
  | spawn r =>
    refine ⟨held ++ [false], List.rel_append hall (.cons (hbody r) .nil), ?_⟩
    rw [List.count_append]
    exact hcount
  | advance i =>
    cases he : p.threads[i]? with
    | none => exact ⟨held, by simpa [Pool.step, he] using ⟨hall, hcount⟩⟩
    | some x =>
      obtain ⟨r, prog⟩ := x
      cases prog with
      | pure a => exact ⟨held, by simpa [Pool.step, he] using ⟨hall, hcount⟩⟩
      | throw e => exact ⟨held, by simpa [Pool.step, he] using ⟨hall, hcount⟩⟩
      | call op next =>
        obtain ⟨hi, hget⟩ := List.getElem?_eq_some_iff.mp he
        have hi' : i < held.length := by rw [hall.length_eq]; exact hi
        have hlin := hall.get hi' hi
        simp only [List.get_eq_getElem, hget] at hlin
        obtain ⟨hs, hnext⟩ := hlin
        refine ⟨held.set i (Program.heldAfter R held[i] op (h op p.shared).1), ?_, ?_⟩
        · simp only [Pool.step, he]
          exact forall₂_set hall (hnext _)
        · simp only [Pool.step, he]
          have hunit := heldAfter_toNat_le (r := (h op p.shared).1) hs
          have hacq := hc.acquired op p.shared
          have hsp := hc.spent op p.shared
          have hpos : held[i].toNat ≤ held.count true := by
            cases hb : held[i]
            · exact Nat.zero_le _
            · exact List.count_pos_iff.mpr (hb ▸ List.getElem_mem hi')
          rw [List.count_set hi']
          have htoNat : ∀ b : Bool, (if (b == true) = true then 1 else 0) = b.toNat := by
            intro b
            cases b <;> rfl
          rw [htoNat, htoNat]
          omega

theorem Accounted.runs (hc : Counts R h acquired spent)
    (hbody : ∀ r, (body r).Linear R (Q r) false) (hp : Accounted R acquired spent Q p)
    (turns : List (Turn ι)) : Accounted R acquired spent Q (p.runs h body turns) := by
  exact List.foldlRecOn (motive := Accounted R acquired spent Q) turns _ hp
    fun q hq t _ => hq.step hc hbody t

/-- A unit that is about to be spent was not spent before. -/
theorem Accounted.lt_of_spends (hp : Accounted R acquired spent Q p) {i : ℕ} {r : ι} {op : S.Op}
    {next : Except ε (S.Reply op) → Program S ε α} (hi : p.threads[i]? = some (r, .call op next))
    (hs : R.spends op = true) : spent p.shared < acquired p.shared := by
  obtain ⟨held, hall, hcount⟩ := hp
  obtain ⟨hlt, hget⟩ := List.getElem?_eq_some_iff.mp hi
  have hi' : i < held.length := by rw [hall.length_eq]; exact hlt
  have hlin := hall.get hi' hlt
  simp only [List.get_eq_getElem, hget] at hlin
  have hpos : 0 < held.count true := List.count_pos_iff.mpr (hlin.1 hs ▸ List.getElem_mem hi')
  omega

/-- The programs that have ended in a result which takes a unit are no more than the units. -/
theorem Accounted.countP_le (hp : Accounted R acquired spent Q p)
    (taken : ι × Program S ε α → Bool)
    (ht : ∀ x, taken x = true → ∀ b, x.2.Linear R (Q x.1) b → b = true) :
    p.threads.countP taken ≤ acquired p.shared := by
  obtain ⟨held, hall, hcount⟩ := hp
  have hle : ∀ {hs : List Bool} {xs : List (ι × Program S ε α)},
      List.Forall₂ (fun b (x : ι × Program S ε α) => x.2.Linear R (Q x.1) b) hs xs →
      xs.countP taken ≤ hs.count true := by
    intro hs xs hall
    induction hall with
    | nil => exact Nat.le_refl _
    | @cons b x hs xs hbx _ ih =>
      rw [List.countP_cons, List.count_cons]
      by_cases hx : taken x = true
      · rw [ht x hx b hbx]
        simpa [hx] using ih
      · rw [if_neg hx]
        omega
  have := hle hall
  omega

end Pool

section Guard

variable {S : Signature} {ε α σ ι : Type}

theorem Pool.Allowed.and {p : Pool S ε α σ ι} {t : Turn ι} {ok ok' : ι → σ → S.Op → Prop}
    (h : p.Allowed ok t) (h' : p.Allowed ok' t) :
    p.Allowed (fun r s op => ok r s op ∧ ok' r s op) t := by
  cases t with
  | spawn r => trivial
  | advance i =>
    unfold Allowed at *
    dsimp only at *
    cases he : p.threads[i]? with
    | none => trivial
    | some x =>
      obtain ⟨r, prog⟩ := x
      rw [he] at h h'
      cases prog with
      | pure a => trivial
      | throw e => trivial
      | call op next => exact ⟨h, h'⟩

theorem Pool.allAllowed_of {h : Handler S ε σ} {body : ι → Program S ε α}
    {ok : ι → σ → S.Op → Prop} (hok : ∀ r s op, ok r s op) {p : Pool S ε α σ ι}
    (turns : List (Turn ι)) : AllAllowed h body ok p turns := by
  induction turns generalizing p with
  | nil => trivial
  | cons t turns ih =>
    refine ⟨?_, ih⟩
    cases t with
    | spawn r => trivial
    | advance i =>
      unfold Allowed
      dsimp only
      unfold NextMeets
      split
      · exact hok _ _ _
      · trivial

/-- The handler that skips the effect of operations outside a condition. -/
def Handler.guard (h : Handler S ε σ) (ok : σ → S.Op → Prop) [∀ s op, Decidable (ok s op)] :
    Handler S ε σ :=
  fun op s => ((h op s).1, if ok s op then (h op s).2 else s)

/-- Where every operation meets the condition, the guarded handler makes no difference. -/
theorem Pool.runs_guard {h : Handler S ε σ} {ok : σ → S.Op → Prop}
    [∀ s op, Decidable (ok s op)] {body : ι → Program S ε α} {p : Pool S ε α σ ι}
    {turns : List (Turn ι)} (ha : AllAllowed h body (fun _ => ok) p turns) :
    p.runs (h.guard ok) body turns = p.runs h body turns := by
  induction turns generalizing p with
  | nil => rfl
  | cons t turns ih =>
    have hstep : p.step (h.guard ok) body t = p.step h body t := by
      cases t with
      | spawn r => rfl
      | advance i =>
        have hnext := ha.1
        simp only [Allowed] at hnext
        cases he : p.threads[i]? with
        | none => simp [Pool.step, he]
        | some x =>
          obtain ⟨r, prog⟩ := x
          rw [he] at hnext
          cases prog with
          | pure a => simp [Pool.step, he]
          | throw e => simp [Pool.step, he]
          | call op next =>
            have hok : ok p.shared op := hnext
            simp [Pool.step, he, Handler.guard, hok]
    change (p.step (h.guard ok) body t).runs (h.guard ok) body turns = _
    rw [hstep]
    exact ih ha.2

end Guard

end Qualigence.Foundation
