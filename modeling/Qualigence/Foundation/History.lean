/-! # Histories of a transition function

A history is a list of events that a state takes one after another. A law about histories
is often conditional: it holds in the states reached by events that each meet a condition
in the state they happen in.
-/

namespace Qualigence.Foundation

section History

variable {σ : Type u} {ε : Type v} (step : σ → ε → σ) (ok : σ → ε → Prop)

/-- Every event of a history meets a condition in the state it happens in. -/
def Meets : σ → List ε → Prop
  | _, [] => True
  | s, e :: events => ok s e ∧ Meets (step s e) events

instance decidableMeets [∀ s e, Decidable (ok s e)] :
    (s : σ) → (events : List ε) → Decidable (Meets step ok s events)
  | _, [] => isTrue trivial
  | s, e :: events =>
    have : Decidable (Meets step ok (step s e) events) := decidableMeets (step s e) events
    inferInstanceAs (Decidable (_ ∧ _))

variable {step ok}

/-- What every event that meets the condition keeps, every history of them keeps. -/
theorem Meets.foldl {I : σ → Prop} (hstep : ∀ s e, ok s e → I s → I (step s e)) {s : σ}
    {events : List ε} (h : Meets step ok s events) (hs : I s) : I (events.foldl step s) := by
  induction events generalizing s with
  | nil => exact hs
  | cons e events ih => exact ih h.2 (hstep s e h.1 hs)

theorem meets_append {s : σ} {past later : List ε} :
    Meets step ok s (past ++ later) ↔
      Meets step ok s past ∧ Meets step ok (past.foldl step s) later := by
  induction past generalizing s with
  | nil => exact ⟨fun h => ⟨trivial, h⟩, fun h => h.2⟩
  | cons e past ih =>
    constructor
    · rintro ⟨he, h⟩
      obtain ⟨hp, hl⟩ := ih.mp h
      exact ⟨⟨he, hp⟩, hl⟩
    · rintro ⟨⟨he, hp⟩, hl⟩
      exact ⟨he, ih.mpr ⟨hp, hl⟩⟩

/-- Under an invariant that is kept, one condition on the events gives another. -/
theorem Meets.imp {I : σ → Prop} {ok' : σ → ε → Prop}
    (hstep : ∀ s e, I s → ok s e → ok' s e ∧ I (step s e)) {s : σ} {events : List ε} (hs : I s)
    (h : Meets step ok s events) : Meets step ok' s events := by
  induction events generalizing s with
  | nil => trivial
  | cons e events ih =>
    obtain ⟨hok, hI⟩ := hstep s e hs h.1
    exact ⟨hok, ih hI h.2⟩

theorem Meets.and {ok' : σ → ε → Prop} {s : σ} {events : List ε} (h : Meets step ok s events)
    (h' : Meets step ok' s events) : Meets step (fun s e => ok s e ∧ ok' s e) s events := by
  induction events generalizing s with
  | nil => trivial
  | cons e events ih => exact ⟨⟨h.1, h'.1⟩, ih h.2 h'.2⟩

/-- The entries of a log that only grows are all good exactly when every event adds good ones. -/
theorem forall_log_iff {α : Type w} {I : σ → Prop} {log : σ → List α} {good : α → Prop}
    (hstep : ∀ s e, I s → I (step s e) ∧
      ∃ added, log (step s e) = log s ++ added ∧ ((∀ x ∈ added, good x) ↔ ok s e))
    {s : σ} (hs : I s) {events : List ε} :
    (∀ x ∈ log (events.foldl step s), good x) ↔
      (∀ x ∈ log s, good x) ∧ Meets step ok s events := by
  induction events generalizing s with
  | nil => exact ⟨fun hall => ⟨hall, trivial⟩, fun hall => hall.1⟩
  | cons e events ih =>
    obtain ⟨hI, added, hlog, hgood⟩ := hstep s e hs
    rw [List.foldl_cons, ih hI, hlog, List.forall_mem_append, hgood, and_assoc]
    rfl

end History

end Qualigence.Foundation
