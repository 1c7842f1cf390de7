import Qualigence.Foundation.Program

/-! # Programs one after another

Programs run to their ends one after another on a shared state. What a careful program assumes of
the states in which it performs its operations, the environment grants; what it guarantees of them
holds then. A program over one signature becomes one over another when each of its operations is
carried out by a program.
-/

namespace Qualigence.Foundation.Program

variable {S T : Signature} {ε ε' α β γ σ ι : Type}

theorem bind_assoc (p : Program S ε α) (f : α → Program S ε β) (g : β → Program S ε γ) :
    (p.bind f).bind g = p.bind fun a => (f a).bind g := by
  induction p with
  | pure a => rfl
  | throw e => rfl
  | call op next ih => exact congrArg (call op) (funext ih)

/-! ## Assumptions and guarantees -/

section Careful

variable (h : Handler S ε σ) (cond ok : σ → S.Op → Prop) (I : σ → Prop)

/-- Run to its end from a state, a program performs its operations in states where `ok` holds, as
long as they are states where `cond` holds; then it ends with a result in `P`, or with an exception
in `I`. -/
def Careful (P : α → σ → Prop) : Program S ε α → σ → Prop
  | pure a, s => P a s
  | throw _, s => I s
  | call op next, s => cond s op → ok s op ∧ Careful P (next (h op s).1) (h op s).2

variable {h cond ok I} {s : σ} {P : α → σ → Prop} {Q : β → σ → Prop}

theorem Careful.mono {P' : α → σ → Prop} (hP : ∀ a t, P a t → P' a t) {p : Program S ε α}
    (hp : Careful h cond ok I P p s) : Careful h cond ok I P' p s := by
  induction p generalizing s with
  | pure a => exact hP a s hp
  | throw e => exact hp
  | call op next ih => exact fun hc => ⟨(hp hc).1, ih _ (hp hc).2⟩

theorem Careful.raised {I' : σ → Prop} (hI : ∀ t, I t → I' t) {p : Program S ε α}
    (hp : Careful h cond ok I P p s) : Careful h cond ok I' P p s := by
  induction p generalizing s with
  | pure a => exact hp
  | throw e => exact hI s hp
  | call op next ih => exact fun hc => ⟨(hp hc).1, ih _ (hp hc).2⟩

/-- Sequencing. -/
theorem careful_bind {p : Program S ε α} {f : α → Program S ε β}
    (hp : Careful h cond ok I P p s) (hf : ∀ a t, P a t → Careful h cond ok I Q (f a) t) :
    Careful h cond ok I Q (p.bind f) s := by
  induction p generalizing s with
  | pure a => exact hf a s hp
  | throw e => exact hp
  | call op next ih => exact fun hc => ⟨(hp hc).1, ih _ (hp hc).2⟩

theorem careful_perform (op : S.Op) {P : S.Reply op → σ → Prop} (hok : cond s op → ok s op)
    (hr : ∀ a, cond s op → (h op s).1 = .ok a → P a (h op s).2)
    (he : cond s op → I (h op s).2) : Careful h cond ok I P (perform op) s := by
  refine fun hc => ⟨hok hc, ?_⟩
  cases heq : (h op s).1 with
  | ok a => exact hr a hc heq
  | error e => exact he hc

/-- The outcome of a program; nothing is raised. -/
theorem careful_attempt {I' : σ → Prop} {Q : Except ε α → σ → Prop} {p : Program S ε α}
    (hp : Careful h cond ok I P p s) (hok : ∀ a t, P a t → Q (.ok a) t)
    (he : ∀ e t, I t → Q (.error e) t) : Careful h cond ok I' Q p.attempt s := by
  induction p generalizing s with
  | pure a => exact hok a s hp
  | throw e => exact he e s hp
  | call op next ih => exact fun hc => ⟨(hp hc).1, ih _ (hp hc).2⟩

/-- One operation, and the rest of the program after its reply. -/
theorem careful_step {op : S.Op} {f : S.Reply op → Program S ε β} (hok : cond s op → ok s op)
    (hf : ∀ a, cond s op → (h op s).1 = .ok a → Careful h cond ok I Q (f a) (h op s).2)
    (he : cond s op → I (h op s).2) : Careful h cond ok I Q ((perform op).bind f) s :=
  careful_bind (P := fun a t => Careful h cond ok I Q (f a) t) (careful_perform op hok hf he)
    fun _ _ ha => ha

/-- What every operation that a program uses keeps, the program keeps. -/
theorem careful_of_uses {use : S.Op → Prop}
    (hkeep : ∀ s op, I s → use op → cond s op → ok s op ∧ I (h op s).2) {p : Program S ε α}
    (hu : Uses use p) (hs : I s) : Careful h cond ok I (fun _ => I) p s := by
  induction p generalizing s with
  | pure a => exact hs
  | throw e => exact hs
  | call op next ih =>
    intro hc
    obtain ⟨hop, hnext⟩ := hkeep s op hs hu.1 hc
    exact ⟨hop, ih _ (hu.2 _) hnext⟩

/-- In a run whose operations are performed where `cond` holds, they are performed where `ok` holds,
and the program ends as described. -/
theorem Careful.along {p : Program S ε α} (hp : Careful h cond ok I P p s)
    (hc : Along h cond p s) : Along h ok p s := by
  induction p generalizing s with
  | pure a => trivial
  | throw e => trivial
  | call op next ih => exact ⟨(hp hc.1).1, ih _ (hp hc.1).2 hc.2⟩

theorem Careful.ends {p : Program S ε α} (hp : Careful h cond ok I (fun _ => I) p s)
    (hc : Along h cond p s) : I (run h p s).2 := by
  induction p generalizing s with
  | pure a => exact hp
  | throw e => exact hp
  | call op next ih => exact ih _ (hp hc.1).2 hc.2

end Careful

/-! ## Histories -/

section History

variable (h : Handler S ε σ) (body : ι → Program S ε α)

/-- Requests are served one after another, each to its end. -/
def serveAll (s : σ) (requests : List ι) : σ := requests.foldl (fun s r => ((body r).run h s).2) s

/-- While requests are served, every operation is performed in a state where a condition holds. -/
def AlongAll (ok : σ → S.Op → Prop) : σ → List ι → Prop
  | _, [] => True
  | s, r :: requests => Along h ok (body r) s ∧ AlongAll ok ((body r).run h s).2 requests

instance decidableAlongAll {ok : σ → S.Op → Prop} [∀ s op, Decidable (ok s op)] :
    (s : σ) → (requests : List ι) → Decidable (AlongAll h body ok s requests)
  | _, [] => isTrue trivial
  | s, r :: requests =>
    have : Decidable (AlongAll h body ok ((body r).run h s).2 requests) := decidableAlongAll _ _
    inferInstanceAs (Decidable (_ ∧ _))

variable {h body} {cond ok : σ → S.Op → Prop} {I : σ → Prop}

/-- Careful programs that keep an invariant guarantee what they promise in every history. -/
theorem alongAll_of_careful (hbody : ∀ r s, I s → Careful h cond ok I (fun _ => I) (body r) s)
    {s : σ} (hs : I s) {requests : List ι} (hc : AlongAll h body cond s requests) :
    AlongAll h body ok s requests := by
  induction requests generalizing s with
  | nil => trivial
  | cons r requests ih =>
    have hr := hbody r s hs
    exact ⟨hr.along hc.1, ih (hr.ends hc.1) hc.2⟩

end History

/-! ## Programs among other programs -/

section Relabel

variable (into : S.Op → T.Op) (reply : ∀ op, T.Reply (into op) → S.Reply op) (up : ε' → ε)
  (down : ε → ε')

/-- The reply to an operation that was performed as another one. -/
def replyAs {op : S.Op} (r : Except ε' (T.Reply (into op))) : Except ε (S.Reply op) :=
  (r.map (reply op)).mapError up

/-- A program whose operations are operations of a larger signature. -/
def relabel : Program S ε α → Program T ε' α
  | pure a => pure a
  | throw e => throw (down e)
  | call op next => call (into op) fun r => relabel (next (replyAs into reply up r))

/-- A handler of the larger signature, for the operations of the smaller one. -/
def pull (h : Handler T ε' σ) : Handler S ε σ := fun op s =>
  (replyAs into reply up (h (into op) s).1, (h (into op) s).2)

variable {into reply up down} {h : Handler T ε' σ} {cond ok : σ → T.Op → Prop} {I : σ → Prop}
  {s : σ} {P : α → σ → Prop}

theorem Careful.relabel {p : Program S ε α}
    (hp : Careful (pull into reply up h) (fun s op => cond s (into op))
      (fun s op => ok s (into op)) I P p s) :
    Careful h cond ok I P (Program.relabel into reply up down p) s := by
  induction p generalizing s with
  | pure a => exact hp
  | throw e => exact hp
  | call op next ih => exact fun hc => ⟨(hp hc).1, ih _ (hp hc).2⟩

theorem uses_relabel {use : T.Op → Prop} {p : Program S ε α}
    (hp : Uses (fun op => use (into op)) p) :
    Uses use (Program.relabel into reply up down p) := by
  induction p with
  | pure a => trivial
  | throw e => trivial
  | call op next ih => exact ⟨hp.1, fun r => ih _ (hp.2 _)⟩

/-- An operation that is answered with the reply of the other one. -/
theorem pull_eq_ok {into : S.Op → T.Op} {up : ε' → ε} {h : Handler T ε' σ}
    {reply : ∀ op, T.Reply (into op) → S.Reply op} {op : S.Op} {b : S.Reply op}
    (hb : (pull into reply up h op s).1 = .ok b) :
    ∃ a, h (into op) s = (.ok a, (pull into reply up h op s).2) ∧ reply op a = b := by
  unfold pull replyAs at hb
  cases hr : (h (into op) s).1 with
  | ok a =>
    rw [hr] at hb
    cases hb
    exact ⟨a, Prod.ext hr rfl, rfl⟩
  | error e =>
    rw [hr] at hb
    cases hb

/-- A relabelled program runs like the program itself. -/
theorem run_relabel (p : Program S ε α) (s : σ) :
    run h (Program.relabel into reply up down p) s =
      ((run (pull into reply up h) p s).1.mapError down,
        (run (pull into reply up h) p s).2) := by
  induction p generalizing s with
  | pure a => rfl
  | throw e => rfl
  | call op next ih => exact ih _ _

end Relabel

section Translate

variable (f : (op : S.Op) → Program T ε (S.Reply op))

/-- A program whose operations are carried out by other programs; what they raise is what the
operation is answered with. -/
def translate : Program S ε α → Program T ε α
  | pure a => pure a
  | throw e => throw e
  | call op next => (f op).attempt.bind fun r => translate (next r)

variable {f} {h : Handler T ε σ} {cond ok : σ → T.Op → Prop} {I : σ → Prop} {s : σ}

theorem translate_bind (p : Program S ε α) (g : α → Program S ε β) :
    translate f (p.bind g) = (translate f p).bind fun a => translate f (g a) := by
  induction p with
  | pure a => rfl
  | throw e => rfl
  | call op next ih =>
    change ((f op).attempt.bind fun r => translate f ((next r).bind g)) =
      ((f op).attempt.bind _).bind _
    rw [bind_assoc]
    congr 1
    funext r
    exact ih r

theorem careful_translate_bind {p : Program S ε α} {g : α → Program S ε β} {P : α → σ → Prop}
    {Q : β → σ → Prop} (hp : Careful h cond ok I P (translate f p) s)
    (hg : ∀ a t, P a t → Careful h cond ok I Q (translate f (g a)) t) :
    Careful h cond ok I Q (translate f (p.bind g)) s := by
  rw [translate_bind]
  exact careful_bind hp hg

/-- What holds after an attempt. -/
def AfterAttempt (P : α → σ → Prop) (I : σ → Prop) : Except ε α → σ → Prop
  | .ok a => P a
  | .error _ => I

/-- One operation, and the rest of the program after its outcome. -/
theorem careful_translate_call {op : S.Op} {next : Except ε (S.Reply op) → Program S ε α}
    {P : S.Reply op → σ → Prop} {Q : α → σ → Prop} (hp : Careful h cond ok I P (f op) s)
    (hok : ∀ a t, P a t → Careful h cond ok I Q (translate f (next (.ok a))) t)
    (he : ∀ e t, I t → Careful h cond ok I Q (translate f (next (.error e))) t) :
    Careful h cond ok I Q (translate f (call op next)) s := by
  refine careful_bind (careful_attempt (Q := AfterAttempt P I) hp (fun _ _ ha => ha)
    fun _ _ he => he) ?_
  intro r t hr
  cases r with
  | ok a => exact hok a t hr
  | error e => exact he e t hr

/-- When every operation is carried out by a program that keeps an invariant, the whole keeps
it. -/
theorem careful_translate {R : α → Prop}
    (hf : ∀ op s, I s → Careful h cond ok I (fun _ => I) (f op) s) {p : Program S ε α}
    (hr : Returns R p) (hs : I s) :
    Careful h cond ok I (fun a t => I t ∧ R a) (translate f p) s := by
  induction p generalizing s with
  | pure a => exact ⟨hs, hr⟩
  | throw e => exact hs
  | call op next ih =>
    exact careful_translate_call (hf op s hs) (fun a t ht => ih _ (hr _) ht)
      fun e t ht => ih _ (hr _) ht

end Translate

end Qualigence.Foundation.Program
