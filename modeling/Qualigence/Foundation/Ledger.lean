import Mathlib.Data.List.Perm.Basic
import Qualigence.Foundation.History
import Qualigence.Foundation.Session

/-! # What became of the statements of a session

A ledger follows a session and records the statements that make up the committed database, in
their order, and those that the open transaction would add. A transaction adds all that was
performed while it was open, its own statements and those of others. The ledger agrees with what
was acknowledged as long as no rollback takes back a statement of another operation.
-/

namespace Qualigence.Foundation

/-- The statements behind the database, those performed in the open transaction, and which of these
were not performed by its owner. -/
structure Ledger (S : Signature) where
  log : List S.Op
  inside : List S.Op
  others : List S.Op

namespace Ledger

variable {S : Signature} {ε α ι σ : Type}

def start : Ledger S := ⟨[], [], []⟩

/-- The open transaction ends, and with it what was performed in it. -/
def drop (g : Ledger S) : Ledger S := ⟨g.log, [], []⟩

def keep (g : Ledger S) : Ledger S := ⟨g.log ++ g.inside, [], []⟩

/-- The effect of a statement outside of a transaction. -/
def add (g : Ledger S) (w : Session S ε α ι σ) (ops : List S.Op) : Ledger S :=
  match w.inProgress with
  | some _ => ⟨g.log, g.inside ++ ops, g.others ++ ops⟩
  | none => ⟨g.log ++ ops, g.inside, g.others⟩

variable (D : Database S ε σ)

/-- What the next step of a task adds to the ledger. -/
def advance (g : Ledger S) (w : Session S ε α ι σ) (i : ℕ) (fault : Option ε) : Ledger S :=
  match w.tasks i with
  | none => g
  | some (_, .outside o) =>
    match o, fault with
    | .statement op _, none => g.add w (Session.effect op (D.handle op w.visible).1)
    | _, _ => g
  | some (_, .inside body _) =>
    match body, fault with
    | .pure _, none => g.keep
    | .throw _, _ => g.drop
    | .call op _, none => ⟨g.log, g.inside ++ Session.effect op (D.handle op w.visible).1, g.others⟩
    | _, some _ => g

def step (g : Ledger S) (w : Session S ε α ι σ) : SessionEvent ι ε → Ledger S
  | .spawn _ _ => g
  | .advance i fault => g.advance D w i fault
  | .restart => g.drop

end Ledger

/-- A session and its ledger. -/
structure LedgerSession (S : Signature) (ε α ι σ : Type) where
  session : Session S ε α ι σ
  ledger : Ledger S

namespace LedgerSession

variable {S : Signature} {ε α ι σ : Type}

def initial (s : σ) : LedgerSession S ε α ι σ := ⟨Session.initial s, Ledger.start⟩

/-- The next event rolls the open transaction back: its owner has raised an exception, or the
process restarts. -/
def RollsBack (x : LedgerSession S ε α ι σ) : SessionEvent ι ε → Prop
  | .spawn _ _ => False
  | .advance i _ => ∃ r β, ∃ e : ε, ∃ next : Except ε β → Operation S ε α,
      x.session.tasks i = some (r, .inside (.throw e) next)
  | .restart => True

variable (isWrite : S.Op → Bool)

/-- A rollback takes back nothing that another operation wrote. -/
def KeepsOthers (x : LedgerSession S ε α ι σ) (e : SessionEvent ι ε) : Prop :=
  x.RollsBack e → x.ledger.others.filter isWrite = []

variable (D : Database S ε σ) (refused : ε) (prog : ι → Operation S ε α)

def step (x : LedgerSession S ε α ι σ) (e : SessionEvent ι ε) : LedgerSession S ε α ι σ :=
  ⟨x.session.step D refused prog e, x.ledger.step D x.session e⟩

def run (x : LedgerSession S ε α ι σ) (events : List (SessionEvent ι ε)) :
    LedgerSession S ε α ι σ := events.foldl (step D refused prog) x

/-- The database after statements that were performed one after another. -/
def replay (ops : List S.Op) (s : σ) : σ := ops.foldl (fun s op => (D.handle op s).2) s

/-- The database is made of whole effects only, and of all that were acknowledged: the writes behind
it, with those of others that the open transaction will add, are those acknowledged. -/
structure Intact (s₀ : σ) (x : LedgerSession S ε α ι σ) : Prop where
  committed : x.session.committed = replay D x.ledger.log s₀
  acknowledged : ((x.ledger.log ++ x.ledger.others).filter isWrite).Perm
    (x.session.acknowledged.flatten.filter isWrite)

/-- What holds whatever is rolled back. -/
structure Kept (s₀ : σ) (x : LedgerSession S ε α ι σ) : Prop where
  committed : x.session.committed = replay D x.ledger.log s₀
  closed : x.session.inProgress = none → x.ledger.inside = [] ∧ x.ledger.others = []
  working : ∀ t, x.session.inProgress = some t →
    t.working = replay D x.ledger.inside x.session.committed ∧
      x.ledger.inside.Perm (t.trace ++ x.ledger.others)
  inside : ∀ i r task, x.session.tasks i = some (r, task) → task.isInside →
    ∃ t, x.session.inProgress = some t ∧ t.owner = i

variable {D refused prog isWrite} {s₀ : σ} {x : LedgerSession S ε α ι σ}

@[simp] theorem replay_nil (s : σ) : replay D [] s = s := rfl

theorem replay_append (ops ops' : List S.Op) (s : σ) :
    replay D (ops ++ ops') s = replay D ops' (replay D ops s) := List.foldl_append

/-- Only a statement that does not fail has an effect. -/
theorem replay_effect (op : S.Op) (s : σ) :
    replay D (Session.effect op (D.handle op s).1) s = (D.handle op s).2 := by
  cases h : (D.handle op s).1 with
  | ok a => rfl
  | error e => exact (D.unchanged_of_error op s e h).symm

theorem kept_initial (s : σ) : (initial s : LedgerSession S ε α ι σ).Kept D s where
  committed := rfl
  closed := fun _ => ⟨rfl, rfl⟩
  working := nofun
  inside := nofun

theorem intact_initial (s : σ) : (initial s : LedgerSession S ε α ι σ).Intact isWrite D s where
  committed := rfl
  acknowledged := List.Perm.refl _

/-- A task takes a step that leaves the open transaction open. -/
theorem Kept.inside_setTask (h : x.Kept D s₀) {w : Session S ε α ι σ} {i : ℕ} {r : ι}
    {task : Task S ε α} (ht : w.tasks = (x.session.setTask i (some (r, task))).tasks)
    (hp : ∀ t, x.session.inProgress = some t → ∃ t', w.inProgress = some t' ∧ t'.owner = t.owner)
    (hown : task.isInside → ∃ t, w.inProgress = some t ∧ t.owner = i) :
    ∀ j r' task', w.tasks j = some (r', task') → task'.isInside →
      ∃ t, w.inProgress = some t ∧ t.owner = j := by
  intro j r' task' hj hin
  rw [ht, Session.setTask_tasks] at hj
  split at hj
  · next he =>
    cases hj
    rw [he]
    exact hown hin
  · obtain ⟨t, ht', rfl⟩ := h.inside j r' task' hj hin
    exact hp t ht'

/-- The owner of the open transaction ends it. -/
theorem Kept.inside_close (h : x.Kept D s₀) {w : Session S ε α ι σ} {i : ℕ} {r : ι}
    {task : Task S ε α} {o : Operation S ε α} (hi : x.session.tasks i = some (r, task))
    (hin : task.isInside)
    (ht : w.tasks = (x.session.setTask i (some (r, .outside o))).tasks) :
    ∀ j r' task', w.tasks j = some (r', task') → task'.isInside →
      ∃ t, w.inProgress = some t ∧ t.owner = j := by
  intro j r' task' hj hin'
  rw [ht, Session.setTask_tasks] at hj
  split at hj
  · cases hj
    cases hin'
  · next hne =>
    obtain ⟨t, hp, rfl⟩ := h.inside i r task hi hin
    obtain ⟨t', hp', rfl⟩ := h.inside j r' task' hj hin'
    rw [hp] at hp'
    cases hp'
    exact absurd rfl hne

/-- A step of a task that performs nothing. -/
theorem Kept.quiet (h : x.Kept D s₀) {i : ℕ} {r : ι} {task : Task S ε α}
    (hown : task.isInside → ∃ t, x.session.inProgress = some t ∧ t.owner = i) :
    (⟨x.session.setTask i (some (r, task)), x.ledger⟩ : LedgerSession S ε α ι σ).Kept D s₀ where
  committed := h.committed
  closed := h.closed
  working := h.working
  inside := h.inside_setTask rfl (fun t ht => ⟨t, ht, rfl⟩) hown

theorem Kept.performStatement (h : x.Kept D s₀) (i : ℕ) (r : ι) (op : S.Op)
    (next : Except ε (S.Reply op) → Operation S ε α) :
    (⟨x.session.performStatement D i r op next,
      x.ledger.add x.session (Session.effect op (D.handle op x.session.visible).1)⟩ :
      LedgerSession S ε α ι σ).Kept D s₀ := by
  obtain ⟨⟨committed, inProgress, tasks, acknowledged⟩, ⟨log, inside, others⟩⟩ := x
  cases inProgress with
  | none =>
    refine ⟨?_, fun _ => h.closed rfl, nofun, h.inside_setTask rfl nofun nofun⟩
    have hc : committed = replay D log s₀ := h.committed
    change (D.handle op committed).2 =
      replay D (log ++ Session.effect op (D.handle op committed).1) s₀
    rw [replay_append, ← hc, replay_effect]
  | some t =>
    obtain ⟨hw, hperm⟩ := h.working t rfl
    refine ⟨h.committed, nofun, ?_, h.inside_setTask rfl ?_ nofun⟩
    · rintro _ ⟨⟩
      constructor
      · change t.working = replay D inside committed at hw
        change (D.handle op t.working).2 =
          replay D (inside ++ Session.effect op (D.handle op t.working).1) committed
        rw [replay_append, ← hw, replay_effect]
      · exact List.append_assoc t.trace others _ ▸ hperm.append_right _
    · rintro _ ⟨⟩
      exact ⟨_, rfl, rfl⟩

theorem Kept.performInside (h : x.Kept D s₀) {i : ℕ} {r : ι} {β : Type} {op : S.Op}
    {rest : Except ε (S.Reply op) → Program S ε β} {next : Except ε β → Operation S ε α}
    (hi : x.session.tasks i = some (r, .inside (.call op rest) next)) :
    (⟨x.session.performInside D i r op rest next,
      ⟨x.ledger.log, x.ledger.inside ++ Session.effect op (D.handle op x.session.visible).1,
        x.ledger.others⟩⟩ : LedgerSession S ε α ι σ).Kept D s₀ := by
  obtain ⟨t, ht, hown⟩ := h.inside i r _ hi rfl
  obtain ⟨⟨committed, inProgress, tasks, acknowledged⟩, ⟨log, inside, others⟩⟩ := x
  cases ht
  obtain ⟨hw, hperm⟩ := h.working t rfl
  refine ⟨h.committed, nofun, ?_, h.inside_setTask rfl ?_ fun _ => ⟨_, rfl, hown⟩⟩
  · rintro _ ⟨⟩
    constructor
    · change t.working = replay D inside committed at hw
      change (D.handle op t.working).2 =
        replay D (inside ++ Session.effect op (D.handle op t.working).1) committed
      rw [replay_append, ← hw, replay_effect]
    · have hcomm : (others ++ Session.effect op (D.handle op t.working).1).Perm
          (Session.effect op (D.handle op t.working).1 ++ others) := List.perm_append_comm
      have hswap := hcomm.append_left t.trace
      rw [← List.append_assoc, ← List.append_assoc] at hswap
      exact (hperm.append_right _).trans hswap
  · rintro _ ⟨⟩
    exact ⟨_, rfl, rfl⟩

theorem Kept.commit (h : x.Kept D s₀) {i : ℕ} {r : ι} {β : Type} {b : β}
    {next : Except ε β → Operation S ε α}
    (hi : x.session.tasks i = some (r, .inside (.pure b) next)) :
    (⟨x.session.commit i r b next, x.ledger.keep⟩ : LedgerSession S ε α ι σ).Kept D s₀ := by
  obtain ⟨t, ht, -⟩ := h.inside i r _ hi rfl
  obtain ⟨hw, -⟩ := h.working t ht
  have hv : x.session.visible = t.working := by simp only [Session.visible, ht]
  refine ⟨?_, fun _ => ⟨rfl, rfl⟩, (fun _ h => by cases h), h.inside_close hi rfl rfl⟩
  change x.session.visible = replay D (x.ledger.log ++ x.ledger.inside) s₀
  rw [hv, hw, replay_append, ← h.committed]

theorem Kept.rollback (h : x.Kept D s₀) {i : ℕ} {r : ι} {β : Type} {e : ε}
    {next : Except ε β → Operation S ε α}
    (hi : x.session.tasks i = some (r, .inside (.throw e) next)) :
    (⟨x.session.rollback i r e next, x.ledger.drop⟩ : LedgerSession S ε α ι σ).Kept D s₀ :=
  ⟨h.committed, fun _ => ⟨rfl, rfl⟩, nofun, h.inside_close hi rfl rfl⟩

theorem Kept.advance (h : x.Kept D s₀) (refused : ε) (i : ℕ) (fault : Option ε) :
    (⟨x.session.advance D refused i fault, x.ledger.advance D x.session i fault⟩ :
      LedgerSession S ε α ι σ).Kept D s₀ := by
  unfold Session.advance Ledger.advance
  cases hi : x.session.tasks i with
  | none => exact h
  | some rt =>
    obtain ⟨r, task⟩ := rt
    cases task with
    | outside o =>
      cases o with
      | done a => exact h
      | statement op next =>
        cases fault with
        | some e => exact h.quiet nofun
        | none => exact h.performStatement i r op next
      | transaction body next =>
        cases fault with
        | some e => exact h.quiet nofun
        | none =>
          dsimp only
          unfold Session.begin
          cases hp : x.session.inProgress with
          | some t => exact h.quiet nofun
          | none =>
            obtain ⟨hin, hothers⟩ := h.closed hp
            refine ⟨h.committed, nofun, ?_, ?_⟩
            · rintro t ⟨⟩
              simp only [hin, hothers]
              exact ⟨rfl, List.Perm.refl _⟩
            · exact h.inside_setTask rfl (fun t ht => nomatch hp.symm.trans ht)
                fun _ => ⟨_, rfl, rfl⟩
    | inside body next =>
      have hown : ∃ t, x.session.inProgress = some t ∧ t.owner = i := h.inside i r _ hi rfl
      cases body with
      | pure b =>
        cases fault with
        | some e => exact h.quiet fun _ => hown
        | none => exact h.commit hi
      | throw e => exact h.rollback hi
      | call op rest =>
        cases fault with
        | some e => exact h.quiet fun _ => hown
        | none => exact h.performInside hi

theorem Kept.step (h : x.Kept D s₀) (e : SessionEvent ι ε) :
    (x.step D refused prog e).Kept D s₀ := by
  cases e with
  | spawn i r =>
    unfold LedgerSession.step Session.step Ledger.step
    dsimp only
    split
    · exact h
    · exact h.quiet nofun
  | advance i fault => exact h.advance refused i fault
  | restart => exact ⟨h.committed, fun _ => ⟨rfl, rfl⟩, nofun, nofun⟩

/-- What a step that rolls nothing back acknowledges, it adds to the ledger. -/
theorem Kept.acknowledged_step (h : x.Kept D s₀) {e : SessionEvent ι ε} (hn : ¬ x.RollsBack e) :
    ∃ ops, ((x.step D refused prog e).ledger.log ++ (x.step D refused prog e).ledger.others).Perm
        (x.ledger.log ++ x.ledger.others ++ ops) ∧
      (x.step D refused prog e).session.acknowledged.flatten =
        x.session.acknowledged.flatten ++ ops := by
  obtain ⟨⟨committed, inProgress, tasks, acknowledged⟩, ⟨log, inside, others⟩⟩ := x
  have hnone : ∃ ops, (log ++ others).Perm (log ++ others ++ ops) ∧
      acknowledged.flatten = acknowledged.flatten ++ ops := ⟨[], by simp, by simp⟩
  have hflat : ∀ ops, (acknowledged ++ [ops]).flatten = acknowledged.flatten ++ ops := by simp
  cases e with
  | spawn i r =>
    unfold LedgerSession.step Session.step Ledger.step
    dsimp only
    split
    · exact hnone
    · exact hnone
  | restart => exact absurd trivial hn
  | advance i fault =>
    unfold LedgerSession.step Session.step Ledger.step Session.advance Ledger.advance
    dsimp only
    cases hi : tasks i with
    | none => exact hnone
    | some rt =>
      obtain ⟨r, task⟩ := rt
      cases task with
      | outside o =>
        cases o with
        | done a => exact hnone
        | statement op next =>
          cases fault with
          | some e => exact hnone
          | none =>
            cases inProgress with
            | none =>
              obtain ⟨hin, hothers⟩ : inside = [] ∧ others = [] := h.closed rfl
              refine ⟨_, ?_, hflat (Session.effect op (D.handle op committed).1)⟩
              subst hothers
              exact List.Perm.of_eq (by simp [Ledger.add, Session.visible])
            | some t =>
              refine ⟨_, ?_, hflat (Session.effect op (D.handle op t.working).1)⟩
              exact List.Perm.of_eq (List.append_assoc log others _).symm
        | transaction body next =>
          cases fault with
          | some e => exact hnone
          | none => cases inProgress <;> exact hnone
      | inside body next =>
        cases body with
        | pure b =>
          cases fault with
          | some e => exact hnone
          | none =>
            obtain ⟨t, ht, -⟩ := h.inside i r _ hi rfl
            cases ht
            obtain ⟨-, hperm⟩ := h.working t rfl
            refine ⟨t.trace, ?_, hflat t.trace⟩
            have hswap := hperm.trans List.perm_append_comm
            simpa [Ledger.keep] using hswap.append_left log
        | throw e => exact absurd ⟨r, _, e, next, hi⟩ hn
        | call op rest => cases fault <;> exact hnone

/-- A rollback acknowledges nothing and takes back what others did in the transaction. -/
theorem rollback_step {e : SessionEvent ι ε} (hr : x.RollsBack e) :
    (x.step D refused prog e).ledger = x.ledger.drop ∧
      (x.step D refused prog e).session.acknowledged = x.session.acknowledged := by
  cases e with
  | spawn i r => cases hr
  | restart => exact ⟨rfl, rfl⟩
  | advance i fault =>
    obtain ⟨r, β, e, next, hi⟩ := hr
    unfold LedgerSession.step Session.step Ledger.step Session.advance Ledger.advance
    simp only [hi]
    exact ⟨trivial, rfl⟩

/-- A step keeps the database intact just when it takes back nothing that another operation
wrote. -/
theorem Intact.step_iff (h : x.Intact isWrite D s₀) (hk : x.Kept D s₀) (e : SessionEvent ι ε) :
    (x.step D refused prog e).Intact isWrite D s₀ ↔ x.KeepsOthers isWrite e := by
  have hcommitted : (x.step D refused prog e).session.committed = _ := (hk.step e).committed
  by_cases hr : x.RollsBack e
  · have hledger : (x.step D refused prog e).ledger = _ := (rollback_step hr).1
    have hack : (x.step D refused prog e).session.acknowledged = _ := (rollback_step hr).2
    have hlog : (x.ledger.log.filter isWrite).Perm
        (x.session.acknowledged.flatten.filter isWrite) ↔ x.ledger.others.filter isWrite = [] := by
      have hperm := h.acknowledged
      rw [List.filter_append] at hperm
      constructor
      · intro hl
        have hlen := (hl.trans hperm.symm).length_eq
        rw [List.length_append] at hlen
        exact List.eq_nil_of_length_eq_zero (by omega)
      · intro hnil
        rwa [hnil, List.append_nil] at hperm
    constructor
    · intro h' _
      have hperm := h'.acknowledged
      rw [hledger, hack] at hperm
      exact hlog.mp (by simpa [Ledger.drop] using hperm)
    · intro hkeeps
      refine ⟨hcommitted, ?_⟩
      rw [hledger, hack]
      simpa [Ledger.drop] using hlog.mpr (hkeeps hr)
  · obtain ⟨ops, hledger, hack⟩ : ∃ ops, _ ∧
        (x.step D refused prog e).session.acknowledged.flatten = _ := hk.acknowledged_step hr
    refine ⟨fun _ hr' => absurd hr' hr, fun _ => ⟨hcommitted, ?_⟩⟩
    have hops := hledger.filter isWrite
    rw [List.filter_append (x.ledger.log ++ x.ledger.others)] at hops
    rw [hack, List.filter_append x.session.acknowledged.flatten]
    exact hops.trans (h.acknowledged.append_right _)

/-- The database stays intact just as long as no rollback takes back what another operation
wrote. -/
theorem intact_iff_meets (hk : x.Kept D s₀) (h : x.Intact isWrite D s₀)
    (events : List (SessionEvent ι ε)) :
    (∀ past, past <+: events → (x.run D refused prog past).Intact isWrite D s₀) ↔
      Meets (step D refused prog) (KeepsOthers isWrite) x events := by
  induction events generalizing x with
  | nil =>
    refine ⟨fun _ => trivial, fun _ past hpast => ?_⟩
    rw [List.prefix_nil.mp hpast]
    exact h
  | cons e events ih =>
    have hk' : (x.step D refused prog e).Kept D s₀ := hk.step e
    constructor
    · intro hall
      have h' := hall [e] ⟨events, rfl⟩
      refine ⟨(h.step_iff hk e).mp h', (ih hk' h').mp fun past hpast => ?_⟩
      exact hall (e :: past) (List.cons_prefix_cons.mpr ⟨rfl, hpast⟩)
    · rintro ⟨hkeeps, hrest⟩ past hpast
      cases past with
      | nil => exact h
      | cons e' past =>
        obtain ⟨rfl, htail⟩ := List.cons_prefix_cons.mp hpast
        have h' : (x.step D refused prog e').Intact isWrite D s₀ := (h.step_iff hk e').mpr hkeeps
        exact (ih hk' h').mpr hrest past htail

end LedgerSession

end Qualigence.Foundation
