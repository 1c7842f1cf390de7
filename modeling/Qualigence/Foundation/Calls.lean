import Qualigence.Foundation.Monitor

/-! # Logs of programs

An oracle replies to the operations of one program, and may look at every call that was made before.
The log of a run lists the calls in order. What is proved of a program for all replies holds of its
log under every oracle.
-/

namespace Qualigence.Foundation

/-- An operation with the reply to it. -/
structure Call (S : Signature) (ε : Type) where
  op : S.Op
  reply : Except ε (S.Reply op)

/-- A reply to each operation, given the calls before it. -/
abbrev Oracle (S : Signature) (ε : Type) := List (Call S ε) → (op : S.Op) → Except ε (S.Reply op)

namespace Program

variable {S : Signature} {ε α β : Type}

/-- The log with one more call. -/
def logged (log : List (Call S ε)) (op : S.Op) (r : Except ε (S.Reply op)) : List (Call S ε) :=
  log ++ [⟨op, r⟩]

def Oracle.handler (oracle : Oracle S ε) : Handler S ε (List (Call S ε)) := fun op log =>
  (oracle log op, logged log op (oracle log op))

/-- How a program ends under an oracle. -/
def outcome (oracle : Oracle S ε) (p : Program S ε α) : Except ε α :=
  (run (Oracle.handler oracle) p []).1

/-- The calls of a program under an oracle. -/
def calls (oracle : Oracle S ε) (p : Program S ε α) : List (Call S ε) :=
  (run (Oracle.handler oracle) p []).2

/-- Whatever the replies are, a program that starts with a log ends with a log and an outcome as
described. -/
abbrev Logs (Q : List (Call S ε) → Except ε α → Prop) (log : List (Call S ε))
    (p : Program S ε α) : Prop :=
  Watched logged (fun _ _ => True) Q log p

variable {Q : List (Call S ε) → Except ε α → Prop} {log : List (Call S ε)}

theorem Logs.run {p : Program S ε α} (h : Logs Q log p) (oracle : Oracle S ε) :
    Q (run (Oracle.handler oracle) p log).2 (run (Oracle.handler oracle) p log).1 := by
  induction p generalizing log with
  | pure a => exact h
  | throw e => exact h
  | call op next ih => exact ih _ (h.2 _)

/-- A statement about all replies is one about every oracle. -/
theorem Logs.calls {p : Program S ε α} (h : Logs Q [] p) (oracle : Oracle S ε) :
    Q (calls oracle p) (outcome oracle p) := h.run oracle

theorem logs_perform {op : S.Op} {Q : List (Call S ε) → Except ε (S.Reply op) → Prop}
    (h : ∀ r, Q (log ++ [⟨op, r⟩]) r) : Logs Q log (perform op) := by
  refine ⟨trivial, fun r => ?_⟩
  cases r with
  | ok a => exact h (.ok a)
  | error e => exact h (.error e)

/-- One operation, and the rest of the program after a reply. -/
theorem logs_step {op : S.Op} {f : S.Reply op → Program S ε α}
    (he : ∀ e, Q (log ++ [⟨op, .error e⟩]) (.error e))
    (hf : ∀ a, Logs Q (log ++ [⟨op, .ok a⟩]) (f a)) : Logs Q log ((perform op).bind f) :=
  watched_step trivial he hf

theorem logs_tryCatch {p : Program S ε α} {f : ε → Program S ε α}
    (mid : List (Call S ε) → Except ε α → Prop) (hp : Logs mid log p)
    (hok : ∀ log a, mid log (.ok a) → Q log (.ok a))
    (hf : ∀ log e, mid log (.error e) → Logs Q log (f e)) : Logs Q log (p.tryCatch f) := by
  induction p generalizing log with
  | pure a => exact hok log a hp
  | throw e => exact hf log e hp
  | call op next ih => exact ⟨trivial, fun r => ih r (hp.2 r)⟩

/-- A program whose exception is not let through, and what follows. -/
theorem logs_attempt_bind {Q : List (Call S ε) → Except ε β → Prop} {p : Program S ε α}
    {f : Except ε α → Program S ε β} (mid : List (Call S ε) → Except ε α → Prop)
    (hp : Logs mid log p) (hf : ∀ log r, mid log r → Logs Q log (f r)) :
    Logs Q log (p.attempt.bind f) := by
  induction p generalizing log with
  | pure a => exact hf log (.ok a) hp
  | throw e => exact hf log (.error e) hp
  | call op next ih => exact ⟨trivial, fun r => ih r (hp.2 r)⟩

section Total

/-! ## Programs that raise nothing -/

/-- The value of a program that raises nothing. -/
def value : Except Empty α → α
  | .ok a => a

/-- Whatever the replies are, a program that starts with a log returns a value and ends with a log
as described. -/
def Yields (P : List (Call S Empty) → α → Prop) (log : List (Call S Empty))
    (p : Program S Empty α) : Prop :=
  Logs (fun log r => P log (value r)) log p

variable {P : List (Call S Empty) → β → Prop} {log : List (Call S Empty)}

theorem Yields.run {p : Program S Empty β} (h : Yields P log p) (oracle : Oracle S Empty) :
    P (Program.run (Oracle.handler oracle) p log).2
      (value (Program.run (Oracle.handler oracle) p log).1) :=
  Logs.run h oracle

theorem yields_pure {b : β} (h : P log b) : Yields P log (pure b) := h

theorem Yields.imp {P' : List (Call S Empty) → β → Prop} {p : Program S Empty β}
    (hp : Yields P log p) (h : ∀ log b, P log b → P' log b) : Yields P' log p :=
  Watched.mono (fun log r => h log (value r)) hp

theorem yields_step {op : S.Op} {f : S.Reply op → Program S Empty β}
    (hf : ∀ a, Yields P (log ++ [⟨op, .ok a⟩]) (f a)) : Yields P log ((perform op).bind f) :=
  logs_step (fun e => e.elim) hf

theorem yields_bind {M : List (Call S Empty) → α → Prop} {p : Program S Empty α}
    {f : α → Program S Empty β} (hp : Yields M log p)
    (hf : ∀ log a, M log a → Yields P log (f a)) : Yields P log (p.bind f) :=
  watched_bind (fun log r => M log (value r)) hp (fun log a h => hf log a h)
    (fun _ e => e.elim)

/-- Whatever the replies are, a program that starts with a log adds calls to it and returns a value
as described. -/
def Adds (P : List (Call S Empty) → α → Prop) (log : List (Call S Empty))
    (p : Program S Empty α) : Prop :=
  Yields (fun log' a => ∃ during, log' = log ++ during ∧ P during a) log p

theorem adds_pure {b : β} (h : P [] b) : Adds P log (pure b) :=
  ⟨[], (List.append_nil log).symm, h⟩

theorem Adds.imp {P' : List (Call S Empty) → β → Prop} {p : Program S Empty β}
    (hp : Adds P log p) (h : ∀ during b, P during b → P' during b) : Adds P' log p :=
  Yields.imp hp fun _ b ⟨during, heq, hd⟩ => ⟨during, heq, h during b hd⟩

theorem adds_step {op : S.Op} {f : S.Reply op → Program S Empty β}
    (hf : ∀ a, Adds (fun during b => P (⟨op, .ok a⟩ :: during) b) (log ++ [⟨op, .ok a⟩]) (f a)) :
    Adds P log ((perform op).bind f) := by
  apply yields_step
  intro a
  apply Yields.imp (hf a)
  rintro _ b ⟨during, rfl, h⟩
  exact ⟨_, List.append_assoc log _ during, h⟩

theorem adds_bind {M : List (Call S Empty) → α → Prop} {p : Program S Empty α}
    {f : α → Program S Empty β} (hp : Adds M log p)
    (hf : ∀ d a, M d a → Adds (fun during b => P (d ++ during) b) (log ++ d) (f a)) :
    Adds P log (p.bind f) := by
  refine yields_bind hp ?_
  rintro _ a ⟨d, rfl, h⟩
  apply Yields.imp (hf d a h)
  rintro _ b ⟨during, rfl, hb⟩
  exact ⟨d ++ during, List.append_assoc log d during, hb⟩

end Total

/-- Every call that a run adds to a log is answered by the oracle. -/
theorem mem_run {P : Call S ε → Prop} {oracle : Oracle S ε} (h : ∀ log op, P ⟨op, oracle log op⟩)
    {p : Program S ε α} {log : List (Call S ε)} (hlog : ∀ c ∈ log, P c) :
    ∀ c ∈ (run (Oracle.handler oracle) p log).2, P c := by
  induction p generalizing log with
  | pure a => exact hlog
  | throw e => exact hlog
  | call op next ih =>
    apply ih
    intro c hc
    rcases List.mem_append.mp hc with hc | hc
    · exact hlog c hc
    · rw [List.mem_singleton.mp hc]
      exact h log op

end Program

end Qualigence.Foundation
