import Qualigence.Foundation.Program

/-! # Monitors of programs

A monitor follows a program: it sees each operation with its reply. What it has seen decides which
operation the program may perform next and how it may end, whatever the replies are.
-/

namespace Qualigence.Foundation.Program

variable {S : Signature} {ε α β μ : Type} (next : μ → (op : S.Op) → Except ε (S.Reply op) → μ)
  (ok : μ → S.Op → Prop)

/-- Whatever the replies are, a program performs operations that are `ok` for the monitor only, and
ends in `Q`. -/
def Watched (Q : μ → Except ε α → Prop) : μ → Program S ε α → Prop
  | m, pure a => Q m (.ok a)
  | m, throw e => Q m (.error e)
  | m, call op k => ok m op ∧ ∀ r, Watched Q (next m op r) (k r)

variable {next ok} {m : μ}

theorem Watched.mono {Q Q' : μ → Except ε α → Prop} (hQ : ∀ m r, Q m r → Q' m r)
    {p : Program S ε α} (hp : Watched next ok Q m p) : Watched next ok Q' m p := by
  induction p generalizing m with
  | pure a => exact hQ _ _ hp
  | throw e => exact hQ _ _ hp
  | call op k ih => exact ⟨hp.1, fun r => ih r (hp.2 r)⟩

/-- Sequencing. -/
theorem watched_bind {Q : μ → Except ε β → Prop} {p : Program S ε α} {f : α → Program S ε β}
    (mid : μ → Except ε α → Prop) (hp : Watched next ok mid m p)
    (hf : ∀ m a, mid m (.ok a) → Watched next ok Q m (f a))
    (he : ∀ m e, mid m (.error e) → Q m (.error e)) : Watched next ok Q m (p.bind f) := by
  induction p generalizing m with
  | pure a => exact hf m a hp
  | throw e => exact he m e hp
  | call op k ih => exact ⟨hp.1, fun r => ih r (hp.2 r)⟩

/-- One operation, and the rest of the program after a reply. -/
theorem watched_step {Q : μ → Except ε β → Prop} {op : S.Op} {f : S.Reply op → Program S ε β}
    (hok : ok m op) (he : ∀ e, Q (next m op (.error e)) (.error e))
    (hf : ∀ a, Watched next ok Q (next m op (.ok a)) (f a)) :
    Watched next ok Q m ((perform op).bind f) := by
  refine ⟨hok, fun r => ?_⟩
  cases r with
  | ok a => exact hf a
  | error e => exact he e

/-- What holds of a program whatever the replies are holds of its run. -/
theorem Watched.next_run {Q : μ → Except ε α → Prop} {op : S.Op}
    {k : Except ε (S.Reply op) → Program S ε α} (h : Watched next ok Q m (call op k))
    (r : Except ε (S.Reply op)) : Watched next ok Q (next m op r) (k r) := h.2 r

end Qualigence.Foundation.Program
