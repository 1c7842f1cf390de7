import Mathlib.Data.Nat.Notation
import Mathlib.Logic.Relation

/-! # Interaction programs

A program performs the operations of a signature one after another and ends with a value
or an exception. A handler answers each operation against a shared state, with a reply
or an exception. One program can be run to its end, or many programs can take turns on
the shared state, one operation at a time. `Assured` is the rely-guarantee condition
under which what a program establishes survives every interleaving.
-/

namespace Qualigence.Foundation

/-- A sequence of two steps succeeds when both do. -/
theorem bind_eq_ok {ε α β : Type} {x : Except ε α} {f : α → Except ε β} {b : β} :
    x >>= f = .ok b ↔ ∃ a, x = .ok a ∧ f a = .ok b := by
  cases x with
  | error e => exact ⟨nofun, fun ⟨_, h, _⟩ => nomatch h⟩
  | ok a => exact ⟨fun h => ⟨a, rfl, h⟩, fun ⟨_, h, hf⟩ => by cases h; exact hf⟩

theorem ok_bind {ε α β : Type} (a : α) (f : α → Except ε β) : (.ok a : Except ε α) >>= f = f a :=
  rfl

theorem mapError_eq_ok {ε ε' α : Type} {x : Except ε α} {f : ε → ε'} {a : α} :
    x.mapError f = .ok a ↔ x = .ok a := by
  cases x with
  | error e => exact ⟨nofun, nofun⟩
  | ok b => exact ⟨fun h => by cases h; rfl, fun h => by cases h; rfl⟩

/-- Every result of a list that is mapped without an exception is the result of an item. -/
theorem exists_of_mapM {ε α β : Type} {f : β → Except ε α} {ys : List β} {xs : List α}
    (h : ys.mapM f = .ok xs) : ∀ x ∈ xs, ∃ y ∈ ys, f y = .ok x := by
  induction ys generalizing xs with
  | nil =>
    cases h
    nofun
  | cons y ys ih =>
    rw [List.mapM_cons] at h
    obtain ⟨x, hx, h⟩ := bind_eq_ok.mp h
    obtain ⟨rest, hr, h⟩ := bind_eq_ok.mp h
    cases h
    intro z hz
    rcases List.mem_cons.mp hz with rfl | hz
    · exact ⟨y, List.mem_cons_self, hx⟩
    · obtain ⟨y', hy, hz⟩ := ih hr z hz
      exact ⟨y', List.mem_cons_of_mem y hy, hz⟩

/-- What each result has in common with its item, the lists have in common. -/
theorem map_eq_of_mapM {ε α β γ : Type} {f : β → Except ε α} {g : α → γ} {g' : β → γ}
    (hg : ∀ y x, f y = .ok x → g x = g' y) {ys : List β} {xs : List α}
    (h : ys.mapM f = .ok xs) : xs.map g = ys.map g' := by
  induction ys generalizing xs with
  | nil =>
    cases h
    rfl
  | cons y ys ih =>
    rw [List.mapM_cons] at h
    obtain ⟨x, hx, h⟩ := bind_eq_ok.mp h
    obtain ⟨rest, hr, h⟩ := bind_eq_ok.mp h
    cases h
    rw [List.map_cons, List.map_cons, hg y x hx, ih hr]

/-- Operations with the type of the reply to each of them. -/
structure Signature where
  Op : Type
  Reply : Op → Type

/-- A program over a signature, with exceptions `ε` and results `α`. -/
inductive Program (S : Signature) (ε α : Type) where
  | pure (a : α)
  | throw (e : ε)
  | call (op : S.Op) (next : Except ε (S.Reply op) → Program S ε α)

/-- How operations read and change a shared state. -/
abbrev Handler (S : Signature) (ε σ : Type) := (op : S.Op) → σ → Except ε (S.Reply op) × σ

namespace Program

variable {S : Signature} {ε α β σ ι : Type}

/-- Continue with the result of a program. -/
def bind : Program S ε α → (α → Program S ε β) → Program S ε β
  | pure a, f => f a
  | throw e, _ => throw e
  | call op next, f => call op fun r => (next r).bind f

instance : Monad (Program S ε) where
  pure := pure
  bind := bind

/-- Perform one operation and raise the exception it is answered with, if any. -/
def perform (op : S.Op) : Program S ε (S.Reply op) :=
  call op fun
    | .ok r => pure r
    | .error e => throw e

/-- Continue with a handler for the exception a program ends with. -/
def tryCatch : Program S ε α → (ε → Program S ε α) → Program S ε α
  | pure a, _ => pure a
  | throw e, f => f e
  | call op next, f => call op fun r => (next r).tryCatch f

/-- The outcome of a program, which then raises nothing. -/
def attempt (p : Program S ε α) : Program S ε (Except ε α) :=
  (p.bind fun a => pure (.ok a)).tryCatch fun e => pure (.error e)

@[simp] theorem pure_eq (a : α) : (Pure.pure a : Program S ε α) = pure a := rfl
@[simp] theorem bind_eq (p : Program S ε α) (f : α → Program S ε β) : p >>= f = p.bind f := rfl
@[simp] theorem pure_bind (a : α) (f : α → Program S ε β) : (pure a).bind f = f a := rfl
@[simp] theorem map_eq (f : α → β) (p : Program S ε α) :
    f <$> p = p.bind fun a => pure (f a) := rfl
@[simp] theorem throw_bind (e : ε) (f : α → Program S ε β) : (throw e).bind f = throw e := rfl

/-- The result of a program that has ended without an exception. -/
def result : Program S ε α → Option α
  | pure a => some a
  | throw _ => none
  | call _ _ => none

theorem result_eq_some {p : Program S ε α} {a : α} (h : p.result = some a) : p = pure a := by
  cases p with
  | pure b =>
    cases h
    rfl
  | throw e => cases h
  | call op next => cases h

/-- Run a program to its end. -/
def run (h : Handler S ε σ) : Program S ε α → σ → Except ε α × σ
  | pure a, s => (.ok a, s)
  | throw e, s => (.error e, s)
  | call op next, s => run h (next (h op s).1) (h op s).2

section Run

variable (h : Handler S ε σ) (s : σ)

@[simp] theorem run_pure (a : α) : run h (pure a) s = (.ok a, s) := rfl
@[simp] theorem run_throw (e : ε) : run h (throw e : Program S ε α) s = (.error e, s) := rfl

theorem run_bind (p : Program S ε α) (f : α → Program S ε β) :
    run h (p.bind f) s = match run h p s with
      | (.ok a, t) => run h (f a) t
      | (.error e, t) => (.error e, t) := by
  induction p generalizing s with
  | pure a => rfl
  | throw e => rfl
  | call op next ih => exact ih _ _

theorem run_map (f : α → β) (p : Program S ε α) :
    run h (f <$> p) s = ((run h p s).1.map f, (run h p s).2) := by
  rw [map_eq, run_bind]
  rcases run h p s with ⟨r | e, t⟩ <;> rfl

@[simp] theorem run_perform (op : S.Op) : run h (perform op) s = h op s := by
  have he : ∀ x : Except ε (S.Reply op) × σ,
      run h (match x.1 with | .ok r => pure r | .error e => throw e) x.2 = x := by
    rintro ⟨r | e, t⟩ <;> rfl
  exact he (h op s)

theorem run_tryCatch (p : Program S ε α) (f : ε → Program S ε α) :
    run h (p.tryCatch f) s = match run h p s with
      | (.ok a, t) => (.ok a, t)
      | (.error e, t) => run h (f e) t := by
  induction p generalizing s with
  | pure a => rfl
  | throw e => rfl
  | call op next ih => exact ih _ _

end Run

/-- Run to its end from `s`, the program ends in `Q`. -/
def Ends (h : Handler S ε σ) (Q : Except ε α → σ → Prop) (p : Program S ε α) (s : σ) : Prop :=
  Q (run h p s).1 (run h p s).2

section Ends

variable {h : Handler S ε σ} {s : σ}

theorem ends_perform {op : S.Op} {Q : Except ε (S.Reply op) → σ → Prop}
    (hq : Q (h op s).1 (h op s).2) : Ends h Q (perform op) s := by
  unfold Ends
  rw [run_perform]
  exact hq

/-- Sequencing: the first program ends in a result from which the second one ends as
wanted, or in an exception that passes. -/
theorem ends_bind {Q : Except ε β → σ → Prop} {p : Program S ε α} {f : α → Program S ε β}
    (mid : α → σ → Prop) (hp : Ends h (fun r t => match r with
      | .ok a => mid a t
      | .error e => Q (.error e) t) p s)
    (hf : ∀ a t, mid a t → Ends h Q (f a) t) : Ends h Q (p.bind f) s := by
  unfold Ends at hp ⊢
  rw [run_bind]
  cases hr : run h p s with
  | mk r t =>
    rw [hr] at hp
    cases r with
    | ok a => exact hf a t hp
    | error e => exact hp

/-- One operation that is answered with a result, and the rest of the program. -/
theorem ends_step {Q : Except ε β → σ → Prop} {op : S.Op} {f : S.Reply op → Program S ε β}
    {a : S.Reply op} {t : σ} (ha : h op s = (.ok a, t)) (hf : Ends h Q (f a) t) :
    Ends h Q ((perform op).bind f) s := by
  unfold Ends at hf ⊢
  rw [run_bind, run_perform, ha]
  exact hf

theorem Ends.mono {Q Q' : Except ε α → σ → Prop} (hQ : ∀ r t, Q r t → Q' r t)
    {p : Program S ε α} (hp : Ends h Q p s) : Ends h Q' p s :=
  hQ _ _ hp

theorem Ends.and {Q Q' : Except ε α → σ → Prop} {p : Program S ε α} (hp : Ends h Q p s)
    (hp' : Ends h Q' p s) : Ends h (fun r t => Q r t ∧ Q' r t) p s :=
  ⟨hp, hp'⟩

end Ends

/-- Every operation a program performs satisfies a condition, whatever the replies are. -/
def Uses (ok : S.Op → Prop) : Program S ε α → Prop
  | pure _ => True
  | throw _ => True
  | call op next => ok op ∧ ∀ r, Uses ok (next r)

section Uses

variable {ok : S.Op → Prop}

theorem Uses.mono {ok' : S.Op → Prop} (h : ∀ op, ok op → ok' op) {p : Program S ε α}
    (hp : Uses ok p) : Uses ok' p := by
  induction p with
  | pure a => trivial
  | throw e => trivial
  | call op next ih => exact ⟨h op hp.1, fun r => ih r (hp.2 r)⟩

theorem uses_bind {p : Program S ε α} {f : α → Program S ε β} (hp : Uses ok p)
    (hf : ∀ a, Uses ok (f a)) : Uses ok (p.bind f) := by
  induction p with
  | pure a => exact hf a
  | throw e => trivial
  | call op next ih => exact ⟨hp.1, fun r => ih r (hp.2 r)⟩

theorem uses_tryCatch {p : Program S ε α} {f : ε → Program S ε α} (hp : Uses ok p)
    (hf : ∀ e, Uses ok (f e)) : Uses ok (p.tryCatch f) := by
  induction p with
  | pure a => trivial
  | throw e => exact hf e
  | call op next ih => exact ⟨hp.1, fun r => ih r (hp.2 r)⟩

theorem uses_perform {op : S.Op} (h : ok op) : Uses ok (perform (ε := ε) op) := by
  refine ⟨h, fun r => ?_⟩
  cases r <;> trivial

/-- What the operations of a program keep between the states before and after them, the
program keeps. -/
theorem run_of_uses {h : Handler S ε σ} {R : σ → σ → Prop} (hrefl : ∀ s, R s s)
    (htrans : ∀ s t u, R s t → R t u → R s u) (hstep : ∀ op s, ok op → R s (h op s).2)
    {p : Program S ε α} (hp : Uses ok p) (s : σ) : R s (run h p s).2 := by
  induction p generalizing s with
  | pure a => exact hrefl s
  | throw e => exact hrefl s
  | call op next ih => exact htrans _ _ _ (hstep op s hp.1) (ih _ (hp.2 _) _)

end Uses

/-- Run to its end from `s`, a program performs each of its operations in a state where a
condition holds. -/
def Along (h : Handler S ε σ) (ok : σ → S.Op → Prop) : Program S ε α → σ → Prop
  | pure _, _ => True
  | throw _, _ => True
  | call op next, s => ok s op ∧ Along h ok (next (h op s).1) (h op s).2

instance decidableAlong {h : Handler S ε σ} {ok : σ → S.Op → Prop}
    [∀ s op, Decidable (ok s op)] :
    (p : Program S ε α) → (s : σ) → Decidable (Along h ok p s)
  | pure _, _ => isTrue trivial
  | throw _, _ => isTrue trivial
  | call op next, s =>
    have : Decidable (Along h ok (next (h op s).1) (h op s).2) := decidableAlong _ _
    inferInstanceAs (Decidable (_ ∧ _))

section Along

variable {h : Handler S ε σ} {ok : σ → S.Op → Prop} {s : σ}

theorem along_bind {p : Program S ε α} {f : α → Program S ε β} :
    Along h ok (p.bind f) s ↔ Along h ok p s ∧
      ∀ a, (run h p s).1 = .ok a → Along h ok (f a) (run h p s).2 := by
  induction p generalizing s with
  | pure a =>
    refine ⟨fun ha => ⟨trivial, ?_⟩, fun ha => ha.2 a rfl⟩
    rintro _ ⟨⟩
    exact ha
  | throw e =>
    refine ⟨fun _ => ⟨trivial, ?_⟩, fun _ => trivial⟩
    rintro _ ⟨⟩
  | call op next ih =>
    constructor
    · rintro ⟨hop, ha⟩
      obtain ⟨hn, hf⟩ := (ih _).mp ha
      exact ⟨⟨hop, hn⟩, hf⟩
    · rintro ⟨⟨hop, hn⟩, hf⟩
      exact ⟨hop, (ih _).mpr ⟨hn, hf⟩⟩

theorem along_perform {op : S.Op} : Along h ok (perform op) s ↔ ok s op := by
  refine ⟨fun ha => ha.1, fun hop => ⟨hop, ?_⟩⟩
  cases (h op s).1 <;> trivial

/-- Sequencing under a condition on the operations that are performed. -/
theorem ends_bind_of_along {Q : Except ε β → σ → Prop} {p : Program S ε α}
    {f : α → Program S ε β} (ha : Along h ok (p.bind f) s) (mid : α → σ → Prop)
    (hp : Ends h (fun r t => match r with
      | .ok a => mid a t
      | .error e => Q (.error e) t) p s)
    (hf : ∀ a t, mid a t → Along h ok (f a) t → Ends h Q (f a) t) : Ends h Q (p.bind f) s := by
  obtain ⟨-, hnext⟩ := along_bind.mp ha
  unfold Ends at hp ⊢
  rw [run_bind]
  cases hr : run h p s with
  | mk r t =>
    rw [hr] at hp hnext
    cases r with
    | ok a => exact hf a t hp (hnext a rfl)
    | error e => exact hp

/-- A condition on the operations alone that implies the condition in every state that the
operations can lead to. -/
theorem along_of_uses {use : S.Op → Prop} {I : σ → Prop}
    (hI : ∀ s op, I s → use op → I (h op s).2) (hok : ∀ s op, I s → use op → ok s op)
    {p : Program S ε α} (hp : Uses use p) (hs : I s) : Along h ok p s := by
  induction p generalizing s with
  | pure a => trivial
  | throw e => trivial
  | call op next ih => exact ⟨hok s op hs hp.1, ih _ (hp.2 _) (hI s op hs hp.1)⟩

end Along

/-- Every result a program can return satisfies a condition, whatever the replies are. -/
def Returns (Q : α → Prop) : Program S ε α → Prop
  | pure a => Q a
  | throw _ => True
  | call _ next => ∀ r, Returns Q (next r)

section Returns

theorem returns_bind {Q : β → Prop} {p : Program S ε α} {f : α → Program S ε β}
    (hf : ∀ a, Returns Q (f a)) : Returns Q (p.bind f) := by
  induction p with
  | pure a => exact hf a
  | throw e => trivial
  | call op next ih => exact fun r => ih r

theorem Returns.mono {M Q : α → Prop} (h : ∀ a, M a → Q a) {p : Program S ε α}
    (hp : Returns M p) : Returns Q p := by
  induction p with
  | pure a => exact h a hp
  | throw e => trivial
  | call op next ih => exact fun r => ih r (hp r)

/-- Sequencing, with what the first program can return. -/
theorem Returns.bind {M : α → Prop} {Q : β → Prop} {p : Program S ε α} {f : α → Program S ε β}
    (hp : Returns M p) (hf : ∀ a, M a → Returns Q (f a)) : Returns Q (p.bind f) := by
  induction p with
  | pure a => exact hf a hp
  | throw e => trivial
  | call op next ih => exact fun r => ih r (hp r)

theorem Returns.attempt {M : α → Prop} {p : Program S ε α} (hp : Returns M p) :
    Returns (fun r => ∀ a, r = .ok a → M a) p.attempt := by
  induction p with
  | pure a =>
    rintro _ ⟨⟩
    exact hp
  | throw e => rintro _ ⟨⟩
  | call op next ih => exact fun r => ih r (hp r)

theorem returns_true (p : Program S ε α) : Returns (fun _ => True) p := by
  induction p with
  | pure a => trivial
  | throw e => trivial
  | call op next ih => exact fun r => ih r

theorem Returns.ends {Q : α → Prop} {p : Program S ε α} (hp : Returns Q p)
    {h : Handler S ε σ} {s : σ} : Ends h (fun r _ => ∀ a, r = .ok a → Q a) p s := by
  induction p generalizing s with
  | pure a =>
    rintro _ ⟨⟩
    exact hp
  | throw e => rintro _ ⟨⟩
  | call op next ih => exact ih _ (hp _)

end Returns

/-- What the programs that share a state keep: an invariant, how the state may move on
between two steps of one program, and the operations that may be performed in a state. -/
structure Discipline (h : Handler S ε σ) where
  inv : σ → Prop
  later : σ → σ → Prop
  permitted : σ → S.Op → Prop
  later_refl : ∀ s, later s s
  later_trans : ∀ s t u, later s t → later t u → later s u
  permitted_later : ∀ s t op, later s t → permitted s op → permitted t op
  keeps : ∀ op s, permitted s op → inv s → inv (h op s).2 ∧ later s (h op s).2

section Assured

variable {h : Handler S ε σ} (D : Discipline h) (ok : σ → S.Op → Prop)

/-- Whatever others do between its operations, a program performs permitted operations
only and ends in its postcondition, provided its operations are performed in states where
`ok` holds. -/
def Assured (post : σ → α → Prop) : Program S ε α → σ → Prop
  | pure a, s => post s a
  | throw _, _ => True
  | call op next, s => D.permitted s op ∧ ∀ t, D.later s t → D.inv t → ok t op →
      Assured post (next (h op t).1) (h op t).2

variable {D ok}

theorem Assured.mono {post : σ → α → Prop}
    (hp : ∀ s t a, D.later s t → D.inv t → post s a → post t a)
    {p : Program S ε α} {s t : σ} (ha : Assured D ok post p s)
    (hst : D.later s t) (ht : D.inv t) : Assured D ok post p t := by
  cases p with
  | pure a => exact hp s t a hst ht ha
  | throw e => trivial
  | call op next =>
    refine ⟨D.permitted_later s t op hst ha.1, fun u htu hu hok => ?_⟩
    exact ha.2 u (D.later_trans s t u hst htu) hu hok

/-- A stronger condition on the states in which operations are performed assures more. -/
theorem Assured.guard {ok' : σ → S.Op → Prop} (hok : ∀ t op, ok' t op → ok t op)
    {post : σ → α → Prop} {p : Program S ε α} {s : σ} (ha : Assured D ok post p s) :
    Assured D ok' post p s := by
  induction p generalizing s with
  | pure a => exact ha
  | throw e => trivial
  | call op next ih =>
    exact ⟨ha.1, fun t hst ht h' => ih _ (ha.2 t hst ht (hok t op h'))⟩

/-- Sequencing; the second program starts in a later state. -/
theorem assured_bind_later {post : σ → β → Prop} {M : σ → α → Prop} {p : Program S ε α}
    {f : α → Program S ε β} {s : σ} (hs : D.inv s) (hp : Assured D ok M p s)
    (hf : ∀ t a, D.inv t → D.later s t → M t a → Assured D ok post (f a) t) :
    Assured D ok post (p.bind f) s := by
  induction p generalizing s with
  | pure a => exact hf s a hs (D.later_refl s) hp
  | throw e => trivial
  | call op next ih =>
    refine ⟨hp.1, fun t hst ht hok => ?_⟩
    obtain ⟨hinv, hlater⟩ := D.keeps op t (D.permitted_later s t op hst hp.1) ht
    refine ih _ hinv (hp.2 t hst ht hok) fun u a hu hl hm => ?_
    exact hf u a hu (D.later_trans _ _ _ (D.later_trans _ _ _ hst hlater) hl) hm

/-- Sequencing; the invariant holds when the second program starts. -/
theorem assured_bind {post : σ → β → Prop} {M : σ → α → Prop} {p : Program S ε α}
    {f : α → Program S ε β} {s : σ} (hs : D.inv s) (hp : Assured D ok M p s)
    (hf : ∀ t a, D.inv t → M t a → Assured D ok post (f a) t) :
    Assured D ok post (p.bind f) s :=
  assured_bind_later hs hp fun t a ht _ => hf t a ht

theorem assured_perform {op : S.Op} {post : σ → S.Reply op → Prop} {s : σ}
    (hop : D.permitted s op)
    (hr : ∀ t r, D.later s t → D.inv t → ok t op → (h op t).1 = .ok r →
      post (h op t).2 r) : Assured D ok post (perform op) s := by
  refine ⟨hop, fun t hst ht hok => ?_⟩
  cases he : (h op t).1 with
  | ok r => exact hr t r hst ht hok he
  | error e => trivial

/-- A program whose operations are permitted in every state keeps the discipline and
whatever survives the steps of others. -/
theorem assured_of_uses {use : S.Op → Prop} {Q : σ → Prop}
    (hu : ∀ s op, use op → D.permitted s op) (hQ : ∀ s t, D.later s t → Q s → Q t)
    {p : Program S ε α} (hp : Uses use p) {s : σ} (hs : Q s) :
    Assured D ok (fun t _ => Q t) p s := by
  induction p generalizing s with
  | pure a => exact hs
  | throw e => trivial
  | call op next ih =>
    refine ⟨hu s op hp.1, fun t hst ht _ => ih _ (hp.2 _) ?_⟩
    exact hQ s _ (D.later_trans s t _ hst (D.keeps op t (hu t op hp.1) ht).2) hs

theorem Assured.weaken {post post' : σ → α → Prop} {p : Program S ε α} {s : σ}
    (ha : Assured D ok post p s) (h : ∀ t a, post t a → post' t a) :
    Assured D ok post' p s := by
  induction p generalizing s with
  | pure a => exact h s a ha
  | throw e => trivial
  | call op next ih => exact ⟨ha.1, fun t hst ht hok => ih _ (ha.2 t hst ht hok)⟩

/-- What survives the steps of others still holds when a program ends. -/
theorem Assured.frame {Q : σ → Prop} {post : σ → α → Prop}
    (hQ : ∀ s t, D.later s t → Q s → Q t) {p : Program S ε α} {s : σ} (hs : Q s)
    (ha : Assured D ok post p s) : Assured D ok (fun t a => Q t ∧ post t a) p s := by
  induction p generalizing s with
  | pure a => exact ⟨hs, ha⟩
  | throw e => trivial
  | call op next ih =>
    refine ⟨ha.1, fun t hst ht hok => ih _ ?_ (ha.2 t hst ht hok)⟩
    have hlater := (D.keeps op t (D.permitted_later s t op hst ha.1) ht).2
    exact hQ s _ (D.later_trans _ _ _ hst hlater) hs

/-- Catching what a program raises; nothing is known when the handler starts. -/
theorem assured_tryCatch {post : σ → α → Prop} {p : Program S ε α} {f : ε → Program S ε α}
    {s : σ} (hp : Assured D ok post p s) (hf : ∀ e t, Assured D ok post (f e) t) :
    Assured D ok post (p.tryCatch f) s := by
  induction p generalizing s with
  | pure a => exact hp
  | throw e => exact hf e s
  | call op next ih => exact ⟨hp.1, fun t hst ht hok => ih _ (hp.2 t hst ht hok)⟩

/-- Catching what a program raises; the handler starts in a later state. -/
theorem assured_tryCatch_later {post : σ → α → Prop} {p : Program S ε α}
    {f : ε → Program S ε α} {s : σ} (hs : D.inv s) (hp : Assured D ok post p s)
    (hf : ∀ e t, D.inv t → D.later s t → Assured D ok post (f e) t) :
    Assured D ok post (p.tryCatch f) s := by
  induction p generalizing s with
  | pure a => exact hp
  | throw e => exact hf e s hs (D.later_refl s)
  | call op next ih =>
    refine ⟨hp.1, fun t hst ht hok => ?_⟩
    obtain ⟨hinv, hlater⟩ := D.keeps op t (D.permitted_later s t op hst hp.1) ht
    refine ih _ hinv (hp.2 t hst ht hok) fun e u hu hl => ?_
    exact hf e u hu (D.later_trans _ _ _ (D.later_trans _ _ _ hst hlater) hl)

/-- A program is assured, and where it raises an exception, `raised` holds. -/
def AssuredOr (D : Discipline h) (ok : σ → S.Op → Prop) (post : σ → α → Prop)
    (raised : σ → ε → Prop) : Program S ε α → σ → Prop
  | pure a, s => post s a
  | throw e, s => raised s e
  | call op next, s => D.permitted s op ∧ ∀ t, D.later s t → D.inv t → ok t op →
      AssuredOr D ok post raised (next (h op t).1) (h op t).2

section AssuredOr

variable {raised : σ → ε → Prop}

theorem AssuredOr.assured {post : σ → α → Prop} {p : Program S ε α} {s : σ}
    (ha : AssuredOr D ok post raised p s) : Assured D ok post p s := by
  induction p generalizing s with
  | pure a => exact ha
  | throw e => trivial
  | call op next ih => exact ⟨ha.1, fun t hst ht hok => ih _ (ha.2 t hst ht hok)⟩

theorem assuredOr_bind {post : σ → β → Prop} {M : σ → α → Prop} {p : Program S ε α}
    {f : α → Program S ε β} {s : σ} (hs : D.inv s) (hp : AssuredOr D ok M raised p s)
    (hf : ∀ t a, D.inv t → M t a → AssuredOr D ok post raised (f a) t) :
    AssuredOr D ok post raised (p.bind f) s := by
  induction p generalizing s with
  | pure a => exact hf s a hs hp
  | throw e => exact hp
  | call op next ih =>
    refine ⟨hp.1, fun t hst ht hok => ?_⟩
    have hinv := (D.keeps op t (D.permitted_later s t op hst hp.1) ht).1
    exact ih _ hinv (hp.2 t hst ht hok)

theorem assuredOr_perform (op : S.Op) {post : σ → S.Reply op → Prop} {s : σ}
    (hop : D.permitted s op)
    (hr : ∀ t r, D.later s t → D.inv t → ok t op → (h op t).1 = .ok r → post (h op t).2 r)
    (he : ∀ t e, D.later s t → D.inv t → ok t op → (h op t).1 = .error e →
      raised (h op t).2 e) : AssuredOr D ok post raised (perform op) s := by
  refine ⟨hop, fun t hst ht hok => ?_⟩
  cases heq : (h op t).1 with
  | ok r => exact hr t r hst ht hok heq
  | error e => exact he t e hst ht hok heq

/-- Catching an exception where it was raised. -/
theorem assured_tryCatch_raised {post : σ → α → Prop} {p : Program S ε α}
    {f : ε → Program S ε α} {s : σ} (hs : D.inv s) (hp : AssuredOr D ok post raised p s)
    (hf : ∀ t e, D.inv t → raised t e → Assured D ok post (f e) t) :
    Assured D ok post (p.tryCatch f) s := by
  induction p generalizing s with
  | pure a => exact hp
  | throw e => exact hf s e hs hp
  | call op next ih =>
    refine ⟨hp.1, fun t hst ht hok => ?_⟩
    have hinv := (D.keeps op t (D.permitted_later s t op hst hp.1) ht).1
    exact ih _ hinv (hp.2 t hst ht hok)

/-- The outcome of an operation. -/
theorem assured_attempt_perform (op : S.Op) {post : σ → Except ε (S.Reply op) → Prop} {s : σ}
    (hop : D.permitted s op)
    (hr : ∀ t, D.later s t → D.inv t → ok t op → post (h op t).2 (h op t).1) :
    Assured D ok post (perform op).attempt s := by
  refine ⟨hop, fun t hst ht hok => ?_⟩
  have hpost := hr t hst ht hok
  cases heq : (h op t).1 with
  | ok r => rwa [heq] at hpost
  | error e => rwa [heq] at hpost

end AssuredOr

theorem assured_attempt {post : σ → Except ε α → Prop} {M : σ → α → Prop} {p : Program S ε α}
    {s : σ} (hs : D.inv s) (hp : Assured D ok M p s)
    (hok : ∀ t a, D.inv t → M t a → post t (.ok a)) (herror : ∀ t e, post t (.error e)) :
    Assured D ok post p.attempt s :=
  assured_tryCatch (assured_bind hs hp hok) fun e t => herror t e

/-- A program that runs to its end alone keeps the discipline. -/
theorem Assured.run {post : σ → α → Prop} {p : Program S ε α} {s : σ}
    (ha : Assured D (fun _ _ => True) post p s) (hs : D.inv s) :
    D.inv (run h p s).2 := by
  induction p generalizing s with
  | pure a => exact hs
  | throw e => exact hs
  | call op next ih =>
    exact ih _ (ha.2 s (D.later_refl s) hs trivial) (D.keeps op s ha.1 hs).1

end Assured

end Program

/-- Programs that take turns on a shared state, each labelled with its request. -/
structure Pool (S : Signature) (ε α σ ι : Type) where
  shared : σ
  threads : List (ι × Program S ε α)

/-- A new request arrives, or one of the programs performs its next operation. -/
inductive Turn (ι : Type) where
  | spawn (r : ι)
  | advance (i : ℕ)

namespace Pool

variable {S : Signature} {ε α σ ι : Type}

/-- One turn of the pool; an ended program has no more turns. -/
def step (h : Handler S ε σ) (body : ι → Program S ε α) (p : Pool S ε α σ ι) :
    Turn ι → Pool S ε α σ ι
  | .spawn r => { p with threads := p.threads ++ [(r, body r)] }
  | .advance i => match p.threads[i]? with
    | some (r, .call op next) =>
      ⟨(h op p.shared).2, p.threads.set i (r, next (h op p.shared).1)⟩
    | _ => p

/-- The pool after a sequence of turns. -/
def runs (h : Handler S ε σ) (body : ι → Program S ε α) (p : Pool S ε α σ ι)
    (turns : List (Turn ι)) : Pool S ε α σ ι :=
  turns.foldl (step h body) p

/-- The next operation of a program, if it has one, meets the condition of its request. -/
def NextMeets (ok : ι → σ → S.Op → Prop) (s : σ) : Option (ι × Program S ε α) → Prop
  | some (r, .call op _) => ok r s op
  | _ => True

/-- The operation a turn performs meets the condition of the request it belongs to. -/
def Allowed (ok : ι → σ → S.Op → Prop) (p : Pool S ε α σ ι) : Turn ι → Prop
  | .spawn _ => True
  | .advance i => NextMeets ok p.shared p.threads[i]?

/-- Every turn of a sequence is allowed in the state it is taken in. -/
def AllAllowed (h : Handler S ε σ) (body : ι → Program S ε α) (ok : ι → σ → S.Op → Prop) :
    Pool S ε α σ ι → List (Turn ι) → Prop
  | _, [] => True
  | p, t :: ts => p.Allowed ok t ∧ AllAllowed h body ok (p.step h body t) ts

instance decidableNextMeets {ok : ι → σ → S.Op → Prop} [hd : ∀ r s op, Decidable (ok r s op)]
    (s : σ) : (x : Option (ι × Program S ε α)) → Decidable (NextMeets ok s x)
  | some (r, .call op _) => hd r s op
  | some (_, .pure _) => isTrue trivial
  | some (_, .throw _) => isTrue trivial
  | none => isTrue trivial

instance decidableAllowed {ok : ι → σ → S.Op → Prop} [∀ r s op, Decidable (ok r s op)]
    (p : Pool S ε α σ ι) : (t : Turn ι) → Decidable (p.Allowed ok t)
  | .spawn _ => isTrue trivial
  | .advance i => decidableNextMeets p.shared p.threads[i]?

instance decidableAllAllowed {h : Handler S ε σ} {body : ι → Program S ε α}
    {ok : ι → σ → S.Op → Prop} [∀ r s op, Decidable (ok r s op)] :
    (p : Pool S ε α σ ι) → (turns : List (Turn ι)) → Decidable (AllAllowed h body ok p turns)
  | _, [] => isTrue trivial
  | p, t :: ts =>
    have : Decidable (AllAllowed h body ok (p.step h body t) ts) := decidableAllAllowed _ ts
    inferInstanceAs (Decidable (_ ∧ _))

/-- Without a condition, every turn is allowed. -/
theorem allAllowed_of_forall {h : Handler S ε σ} {body : ι → Program S ε α}
    {ok : ι → σ → S.Op → Prop} (hok : ∀ r s op, ok r s op) (p : Pool S ε α σ ι)
    (turns : List (Turn ι)) : AllAllowed h body ok p turns := by
  induction turns generalizing p with
  | nil => trivial
  | cons t turns ih =>
    refine ⟨?_, ih _⟩
    cases t with
    | spawn r => trivial
    | advance i =>
      change NextMeets ok p.shared p.threads[i]?
      cases p.threads[i]? with
      | none => trivial
      | some x =>
        obtain ⟨r, prog⟩ := x
        cases prog with
        | pure a => trivial
        | throw e => trivial
        | call op next => exact hok r _ op

theorem runs_append {h : Handler S ε σ} {body : ι → Program S ε α} {p : Pool S ε α σ ι}
    {turns later : List (Turn ι)} :
    p.runs h body (turns ++ later) = (p.runs h body turns).runs h body later :=
  List.foldl_append

theorem allAllowed_append {h : Handler S ε σ} {body : ι → Program S ε α}
    {ok : ι → σ → S.Op → Prop} {p : Pool S ε α σ ι} {turns later : List (Turn ι)} :
    AllAllowed h body ok p (turns ++ later) ↔
      AllAllowed h body ok p turns ∧ AllAllowed h body ok (p.runs h body turns) later := by
  induction turns generalizing p with
  | nil => simp [AllAllowed, runs]
  | cons t turns ih =>
    rw [List.cons_append]
    constructor
    · rintro ⟨ht, ha⟩
      obtain ⟨hturns, hlater⟩ := ih.mp ha
      exact ⟨⟨ht, hturns⟩, hlater⟩
    · rintro ⟨⟨ht, hturns⟩, hlater⟩
      exact ⟨ht, ih.mpr ⟨hturns, hlater⟩⟩

/-- What every operation keeps of the shared state, every sequence of turns keeps. -/
theorem shared_runs {h : Handler S ε σ} {body : ι → Program S ε α} {I : σ → Prop}
    (hI : ∀ op s, I s → I (h op s).2) {p : Pool S ε α σ ι} (hp : I p.shared)
    (turns : List (Turn ι)) : I (p.runs h body turns).shared := by
  refine List.foldlRecOn (motive := fun q : Pool S ε α σ ι => I q.shared) turns _ hp ?_
  intro q hq t _
  cases t with
  | spawn r => exact hq
  | advance i =>
    unfold Pool.step
    dsimp only
    split
    · exact hI _ _ hq
    · exact hq

variable {h : Handler S ε σ} {body : ι → Program S ε α} (D : Program.Discipline h)
  (ok : ι → σ → S.Op → Prop) (post : ι → σ → α → Prop)

/-- The state keeps its invariant and every program that is under way is assured. -/
def Sound (p : Pool S ε α σ ι) : Prop :=
  D.inv p.shared ∧ ∀ x ∈ p.threads, Program.Assured D (ok x.1) (post x.1) x.2 p.shared

variable {D ok post}
  (hpost : ∀ r s t a, D.later s t → D.inv t → post r s a → post r t a)
  (hbody : ∀ r s, D.inv s → Program.Assured D (ok r) (post r) (body r) s)

include hpost hbody

theorem Sound.step {p : Pool S ε α σ ι} (hs : Sound D ok post p) {t : Turn ι}
    (ha : p.Allowed ok t) : Sound D ok post (p.step h body t) := by
  cases t with
  | spawn r =>
    refine ⟨hs.1, fun x hx => ?_⟩
    rcases List.mem_append.mp hx with hx | hx
    · exact hs.2 x hx
    · rw [List.mem_singleton.mp hx]
      exact hbody r p.shared hs.1
  | advance i =>
    cases he : p.threads[i]? with
    | none => simpa [Pool.step, he] using hs
    | some x =>
      obtain ⟨r, prog⟩ := x
      cases prog with
      | pure a => simpa [Pool.step, he] using hs
      | throw e => simpa [Pool.step, he] using hs
      | call op next =>
        obtain ⟨hop, hnext⟩ := hs.2 _ (List.mem_of_getElem? he)
        obtain ⟨hinv, hlater⟩ := D.keeps op p.shared hop hs.1
        simp only [Allowed, NextMeets, he] at ha
        simp only [Pool.step, he]
        refine ⟨hinv, fun x hx => ?_⟩
        rcases List.mem_or_eq_of_mem_set hx with hx | rfl
        · exact (hs.2 x hx).mono (hpost x.1) hlater hinv
        · exact hnext p.shared (D.later_refl _) hs.1 ha

/-- The rely-guarantee rule: in every state reached by allowed turns, every program that
has ended satisfies its postcondition. -/
theorem Sound.runs {p : Pool S ε α σ ι} (hs : Sound D ok post p) {turns : List (Turn ι)}
    (ha : AllAllowed h body ok p turns) : Sound D ok post (p.runs h body turns) := by
  induction turns generalizing p with
  | nil => exact hs
  | cons t ts ih => exact ih (hs.step hpost hbody ha.1) ha.2

omit hpost hbody in
theorem Sound.later_step {p : Pool S ε α σ ι} (hs : Sound D ok post p) (t : Turn ι) :
    D.later p.shared (p.step h body t).shared := by
  cases t with
  | spawn r => exact D.later_refl _
  | advance i =>
    unfold Pool.step
    dsimp only
    split
    · next r op next he =>
      exact (D.keeps op p.shared (hs.2 _ (List.mem_of_getElem? he)).1 hs.1).2
    · exact D.later_refl _

/-- The state moves on in every run. -/
theorem Sound.later_runs {p : Pool S ε α σ ι} (hs : Sound D ok post p) {turns : List (Turn ι)}
    (ha : AllAllowed h body ok p turns) : D.later p.shared (p.runs h body turns).shared := by
  induction turns generalizing p with
  | nil => exact D.later_refl _
  | cons t ts ih =>
    exact D.later_trans _ _ _ (hs.later_step t) (ih (hs.step hpost hbody ha.1) ha.2)

end Pool

end Qualigence.Foundation
