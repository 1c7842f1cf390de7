import Mathlib.Data.Option.Basic
import Qualigence.Foundation.Program

/-! # Operations that share a database connection

An operation performs statements and immediate transactions one after another, and the operations
of many callers take turns on one connection, statement by statement. At most one transaction is
open; every statement that runs meanwhile, whoever performs it, works on the state of the open
transaction. Every statement can fail. A contract says what each operation may rely on and what its
transactions guarantee; operations that meet it keep its invariant in every interleaving.
-/

namespace Qualigence.Foundation

/-- A database: how it answers a statement. A statement that fails changes nothing. -/
structure Database (S : Signature) (ε σ : Type) where
  handle : Handler S ε σ
  unchanged_of_error : ∀ op s e, (handle op s).1 = .error e → (handle op s).2 = s

/-- The statements and transactions of a caller. The transaction ends with a commit of what its
body did, or with a rollback when the body raises an exception. -/
inductive Operation (S : Signature) (ε α : Type) where
  | done (r : Except ε α)
  | statement (op : S.Op) (next : Except ε (S.Reply op) → Operation S ε α)
  | transaction {β : Type} (body : Program S ε β) (next : Except ε β → Operation S ε α)

namespace Operation

variable {S : Signature} {ε α β σ : Type}

/-- Continue with the result of an operation. -/
def bind : Operation S ε α → (α → Operation S ε β) → Operation S ε β
  | done (.ok a), f => f a
  | done (.error e), _ => done (.error e)
  | statement op next, f => statement op fun r => (next r).bind f
  | transaction body next, f => transaction body fun r => (next r).bind f

/-- Continue with a handler for the exception an operation ends with. -/
def tryCatch : Operation S ε α → (ε → Operation S ε α) → Operation S ε α
  | done (.ok a), _ => done (.ok a)
  | done (.error e), f => f e
  | statement op next, f => statement op fun r => (next r).tryCatch f
  | transaction body next, f => transaction body fun r => (next r).tryCatch f

instance : Monad (Operation S ε) where
  pure a := done (.ok a)
  bind := bind

instance : MonadExcept ε (Operation S ε) where
  throw e := done (.error e)
  tryCatch := tryCatch

/-- One statement on its own. -/
def perform (op : S.Op) : Operation S ε (S.Reply op) := statement op done

/-- One transaction. -/
def inTransaction (body : Program S ε α) : Operation S ε α := transaction body done

@[simp] theorem bind_eq (o : Operation S ε α) (f : α → Operation S ε β) : o >>= f = o.bind f := rfl
@[simp] theorem pure_eq (a : α) : (pure a : Operation S ε α) = done (.ok a) := rfl
@[simp] theorem throw_eq (e : ε) : (throw e : Operation S ε α) = done (.error e) := rfl
@[simp] theorem ok_bind (a : α) (f : α → Operation S ε β) : (done (.ok a)).bind f = f a := rfl
@[simp] theorem error_bind (e : ε) (f : α → Operation S ε β) :
    (done (.error e)).bind f = done (.error e) := rfl

theorem bind_assoc {γ : Type} (o : Operation S ε α) (f : α → Operation S ε β)
    (g : β → Operation S ε γ) : (o.bind f).bind g = o.bind fun a => (f a).bind g := by
  induction o with
  | done r => cases r <;> rfl
  | statement op next ih => exact congrArg (statement op) (funext ih)
  | transaction body next ih => exact congrArg (transaction body) (funext ih)

/-- Perform an operation alone on a database, with no fault. -/
def exec (h : Handler S ε σ) : Operation S ε α → σ → Except ε α × σ
  | done r, s => (r, s)
  | statement op next, s => exec h (next (h op s).1) (h op s).2
  | transaction body next, s =>
    match body.run h s with
    | (.ok b, t) => exec h (next (.ok b)) t
    | (.error e, _) => exec h (next (.error e)) s

@[simp] theorem exec_done (h : Handler S ε σ) (r : Except ε α) (s : σ) :
    (done r).exec h s = (r, s) := rfl

@[simp] theorem exec_perform (h : Handler S ε σ) (op : S.Op) (s : σ) :
    (perform op).exec h s = h op s := rfl

theorem exec_bind (h : Handler S ε σ) (o : Operation S ε α) (f : α → Operation S ε β) (s : σ) :
    (o.bind f).exec h s = match o.exec h s with
      | (.ok a, t) => (f a).exec h t
      | (.error e, t) => (.error e, t) := by
  induction o generalizing s with
  | done r => cases r <;> rfl
  | statement op next ih => exact ih _ _
  | transaction body next ih =>
    simp only [bind, exec]
    cases body.run h s with
    | mk r t => cases r <;> exact ih _ _

/-- The operation has ended successfully. -/
def Succeeded : Operation S ε α → Prop
  | done (.ok _) => True
  | _ => False

end Operation

inductive Task (S : Signature) (ε α : Type) where
  | outside (o : Operation S ε α)
  | inside {β : Type} (body : Program S ε β) (next : Except ε β → Operation S ε α)

/-- The task has begun a transaction. -/
def Task.isInside {S : Signature} {ε α : Type} : Task S ε α → Bool
  | .outside _ => false
  | .inside _ _ => true

/-- The open transaction: whose it is, its state, and the statements that its owner performed. -/
structure OpenTransaction (S : Signature) (σ : Type) where
  owner : ℕ
  working : σ
  trace : List S.Op

/-- The connection with its callers, and the effects that were acknowledged to them. -/
structure Session (S : Signature) (ε α ι σ : Type) where
  committed : σ
  inProgress : Option (OpenTransaction S σ)
  tasks : ℕ → Option (ι × Task S ε α)
  acknowledged : List (List S.Op)

/-- A request arrives, a task takes its next step or fails in it, or the process restarts. -/
inductive SessionEvent (ι ε : Type) where
  | spawn (i : ℕ) (r : ι)
  | advance (i : ℕ) (fault : Option ε)
  | restart

namespace Session

variable {S : Signature} {ε β α ι σ : Type}

def initial (s : σ) : Session S ε α ι σ := ⟨s, none, fun _ => none, []⟩

/-- What statements read. -/
def visible (w : Session S ε α ι σ) : σ :=
  match w.inProgress with
  | some t => t.working
  | none => w.committed

def setTask (w : Session S ε α ι σ) (i : ℕ) (task : Option (ι × Task S ε α)) :
    Session S ε α ι σ :=
  { w with tasks := fun j => if j = i then task else w.tasks j }

/-- The statements of an effect that did not fail. -/
def effect {ρ : Type} (op : S.Op) : Except ε ρ → List S.Op
  | .ok _ => [op]
  | .error _ => []

section Step

variable (D : Database S ε σ) (refused : ε) (w : Session S ε α ι σ) (i : ℕ) (r : ι)

/-- A statement outside of a transaction is committed at once, unless a transaction is open. -/
def performStatement (op : S.Op) (next : Except ε (S.Reply op) → Operation S ε α) :
    Session S ε α ι σ :=
  let reply := (D.handle op w.visible).1
  let acknowledged := w.acknowledged ++ [effect op reply]
  let w := w.setTask i (some (r, .outside (next reply)))
  match w.inProgress with
  | some t =>
    { w with inProgress := some { t with working := (D.handle op t.working).2 }, acknowledged }
  | none => { w with committed := (D.handle op w.committed).2, acknowledged }

/-- `BEGIN IMMEDIATE`, which is refused while a transaction is open. -/
def begin (body : Program S ε β) (next : Except ε β → Operation S ε α) :
    Session S ε α ι σ :=
  match w.inProgress with
  | some _ => w.setTask i (some (r, .outside (next (.error refused))))
  | none =>
    { w.setTask i (some (r, .inside body next)) with
      inProgress := some ⟨i, w.committed, []⟩ }

def performInside (op : S.Op) (rest : Except ε (S.Reply op) → Program S ε β)
    (next : Except ε β → Operation S ε α) : Session S ε α ι σ :=
  let reply := (D.handle op w.visible).1
  { w.setTask i (some (r, .inside (rest reply) next)) with
    inProgress := w.inProgress.map fun t =>
      ⟨t.owner, (D.handle op t.working).2, t.trace ++ effect op reply⟩ }

def commit (b : β) (next : Except ε β → Operation S ε α) : Session S ε α ι σ :=
  { w.setTask i (some (r, .outside (next (.ok b)))) with
    committed := w.visible
    inProgress := none
    acknowledged := w.acknowledged ++ [(w.inProgress.map (·.trace)).getD []] }

def rollback (e : ε) (next : Except ε β → Operation S ε α) : Session S ε α ι σ :=
  { w.setTask i (some (r, .outside (next (.error e)))) with inProgress := none }

/-- The next step of a task. A fault is what the statement of the step, the `BEGIN` or the `COMMIT`
fails with; a rollback does not fail. -/
def advance (fault : Option ε) : Session S ε α ι σ :=
  match w.tasks i with
  | none => w
  | some (r, .outside o) =>
    match o, fault with
    | .done _, _ => w
    | .statement _ next, some e => w.setTask i (some (r, .outside (next (.error e))))
    | .statement op next, none => w.performStatement D i r op next
    | .transaction _ next, some e => w.setTask i (some (r, .outside (next (.error e))))
    | .transaction body next, none => w.begin refused i r body next
  | some (r, .inside body next) =>
    match body, fault with
    | .pure b, none => w.commit i r b next
    | .pure _, some e => w.setTask i (some (r, .inside (.throw e) next))
    | .throw e, _ => w.rollback i r e next
    | .call _ rest, some e => w.setTask i (some (r, .inside (rest (.error e)) next))
    | .call op rest, none => w.performInside D i r op rest next

/-- One event. A restart ends every task, and the database drops the open transaction. -/
def step (prog : ι → Operation S ε α) : SessionEvent ι ε → Session S ε α ι σ
  | .spawn i r =>
    match w.tasks i with
    | some _ => w
    | none => w.setTask i (some (r, .outside (prog r)))
  | .advance i fault => w.advance D refused i fault
  | .restart => { w with tasks := fun _ => none, inProgress := none }

/-- The session after a list of events. -/
def run (prog : ι → Operation S ε α) : List (SessionEvent ι ε) → Session S ε α ι σ :=
  List.foldl (fun w e => w.step D refused prog e) w

end Step

end Session

/-- What operations rely on: an invariant of the database, how it may move on, and what statements
may read while a transaction is open. -/
structure Contract (σ : Type) where
  inv : σ → Prop
  later : σ → σ → Prop
  seen : σ → σ → Prop
  later_refl : ∀ s, later s s
  later_trans : ∀ s t u, later s t → later t u → later s u
  seen_refl : ∀ s, inv s → seen s s

section Contract

variable {S : Signature} {ε β α ι σ : Type} (D : Database S ε σ) (C : Contract σ)

/-- From its state `w` on, the body of a transaction over the database `c` keeps to what others may
see and ends in `Q`, whichever of its statements fail. -/
def BodyHonors (c : σ) (Q : Except ε β → σ → Prop) : Program S ε β → σ → Prop
  | .pure b, w => C.seen c w ∧ Q (.ok b) w
  | .throw e, w => C.seen c w ∧ Q (.error e) w
  | .call op next, w => C.seen c w ∧ (∀ e, BodyHonors c Q (next (.error e)) w) ∧
      BodyHonors c Q (next (D.handle op w).1) (D.handle op w).2

/-- Over the database `c`, or any that it may become, an operation writes in transactions only, ends
in `post`, and its transactions keep the contract; where one changes the database, `last` holds of
the states before and after it and of the rest of the operation. -/
def HonorsUntil (last : σ → σ → Operation S ε α → Prop) (post : σ → Except ε α → Prop) :
    Operation S ε α → σ → Prop
  | .done r, c => post c r
  | .statement op next, c => ∀ c' v, C.later c c' → C.inv c' → C.seen c' v →
      (D.handle op v).2 = v ∧ HonorsUntil last post (next (D.handle op v).1) c' ∧
        ∀ e, HonorsUntil last post (next (.error e)) c'
  | .transaction body next, c => ∀ c', C.later c c' → C.inv c' →
      (∀ e, HonorsUntil last post (next (.error e)) c') ∧
        BodyHonors D C c' (fun r w => match r with
          | .ok b => C.inv w ∧ C.later c' w ∧ HonorsUntil last post (next (.ok b)) w ∧
              (w = c' ∨ last c' w (next (.ok b)))
          | .error _ => True) body c'

/-- An operation whose last transaction alone changes the database, and changes it so. -/
abbrev Honors (change : σ → σ → Prop) (post : σ → Except ε α → Prop) : Operation S ε α → σ → Prop :=
  HonorsUntil D C (fun c w o => o.Succeeded ∧ change c w) post

/-- An operation that changes nothing. -/
abbrev Reads (post : σ → Except ε α → Prop) : Operation S ε α → σ → Prop :=
  HonorsUntil D C (fun _ _ _ => False) post

variable {D C} {post : σ → Except ε α → Prop} {last : σ → σ → Operation S ε α → Prop}

theorem BodyHonors.seen {c w : σ} {Q : Except ε β → σ → Prop} {body : Program S ε β}
    (h : BodyHonors D C c Q body w) : C.seen c w := by
  cases body with
  | pure b => exact h.1
  | throw e => exact h.1
  | call op next => exact h.1

theorem HonorsUntil.mono (hpost : ∀ c c' r, C.later c c' → post c r → post c' r)
    {o : Operation S ε α} {c c' : σ} (h : HonorsUntil D C last post o c) (hl : C.later c c') :
    HonorsUntil D C last post o c' := by
  cases o with
  | done r => exact hpost c c' r hl h
  | statement op next =>
    intro c'' v hl' hi hs
    exact h c'' v (C.later_trans _ _ _ hl hl') hi hs
  | transaction body next =>
    intro c'' hl' hi
    exact h c'' (C.later_trans _ _ _ hl hl') hi

theorem BodyHonors.imp {β : Type} {c w : σ} {Q Q' : Except ε β → σ → Prop} {body : Program S ε β}
    (h : BodyHonors D C c Q body w) (hQ : ∀ r w, C.seen c w → Q r w → Q' r w) :
    BodyHonors D C c Q' body w := by
  induction body generalizing w with
  | pure b => exact ⟨h.1, hQ _ _ h.1 h.2⟩
  | throw e => exact ⟨h.1, hQ _ _ h.1 h.2⟩
  | call op next ih => exact ⟨h.1, fun e => ih _ (h.2.1 e), ih _ h.2.2⟩

/-- Sequencing in the body of a transaction. -/
theorem bodyHonors_bind {β γ : Type} {c w : σ} {Q : Except ε γ → σ → Prop} {p : Program S ε β}
    {f : β → Program S ε γ}
    (h : BodyHonors D C c (fun r w => match r with
      | .ok b => BodyHonors D C c Q (f b) w
      | .error e => Q (.error e) w) p w) : BodyHonors D C c Q (p.bind f) w := by
  induction p generalizing w with
  | pure b => exact h.2
  | throw e => exact h
  | call op next ih => exact ⟨h.1, fun e => ih _ (h.2.1 e), ih _ h.2.2⟩

/-- One statement in the body of a transaction, and the rest of it after a reply. -/
theorem bodyHonors_step {β : Type} {c w : σ} {op : S.Op} {f : S.Reply op → Program S ε β}
    {Q : Except ε β → σ → Prop} (hs : C.seen c w) (he : ∀ e w, Q (.error e) w)
    (h : ∀ a, (D.handle op w).1 = .ok a → BodyHonors D C c Q (f a) (D.handle op w).2) :
    BodyHonors D C c Q ((Program.perform op).bind f) w := by
  refine ⟨hs, fun e => ⟨hs, he e w⟩, ?_⟩
  cases hr : (D.handle op w).1 with
  | ok a => exact h a hr
  | error e =>
    rw [D.unchanged_of_error op w e hr]
    exact ⟨hs, he e w⟩

/-- The last statement in the body of a transaction. -/
theorem bodyHonors_last {c w : σ} (op : S.Op) {Q : Except ε (S.Reply op) → σ → Prop}
    (hs : C.seen c w) (he : ∀ e w, Q (.error e) w)
    (h : ∀ a, (D.handle op w).1 = .ok a →
      C.seen c (D.handle op w).2 ∧ Q (.ok a) (D.handle op w).2) :
    BodyHonors D C c Q (Program.perform op) w := by
  refine ⟨hs, fun e => ⟨hs, he e w⟩, ?_⟩
  cases hr : (D.handle op w).1 with
  | ok a => exact h a hr
  | error e =>
    rw [D.unchanged_of_error op w e hr]
    exact ⟨hs, he e w⟩

/-- Sequencing after an operation that changes nothing. -/
theorem HonorsUntil.bind {γ : Type} (mid : σ → Except ε γ → Prop) {o : Operation S ε γ}
    {f : γ → Operation S ε α} {c : σ} (ho : Reads D C mid o c)
    (hf : ∀ a c', C.later c c' → mid c' (.ok a) → HonorsUntil D C last post (f a) c')
    (he : ∀ e c', mid c' (.error e) → post c' (.error e)) :
    HonorsUntil D C last post (o.bind f) c := by
  induction o generalizing c with
  | done r =>
    cases r with
    | ok a => exact hf a c (C.later_refl c) ho
    | error e => exact he e c ho
  | statement op next ih =>
    intro c' v hl hi hs
    obtain ⟨hread, hnext, herr⟩ := ho c' v hl hi hs
    have hf' : ∀ a c'', C.later c' c'' → mid c'' (.ok a) → HonorsUntil D C last post (f a) c'' :=
      fun a c'' hl' => hf a c'' (C.later_trans _ _ _ hl hl')
    exact ⟨hread, ih _ hnext hf', fun e => ih _ (herr e) hf'⟩
  | transaction body next ih =>
    intro c' hl hi
    obtain ⟨herr, hbody⟩ := ho c' hl hi
    have hf' : ∀ a c'', C.later c' c'' → mid c'' (.ok a) → HonorsUntil D C last post (f a) c'' :=
      fun a c'' hl' => hf a c'' (C.later_trans _ _ _ hl hl')
    refine ⟨fun e => ih _ (herr e) hf', hbody.imp fun r w hs hQ => ?_⟩
    cases r with
    | error e => trivial
    | ok b =>
      obtain ⟨hinv, hlater, hnext, hsame | hlast⟩ := hQ
      · refine ⟨hinv, hlater, ih _ hnext ?_, Or.inl hsame⟩
        exact fun a c'' hl' => hf' a c'' (C.later_trans _ _ _ hlater hl')
      · cases hlast

theorem reads_perform {c : σ} {op : S.Op} {mid : σ → Except ε (S.Reply op) → Prop}
    (h : ∀ c' v, C.later c c' → C.inv c' → C.seen c' v →
      (D.handle op v).2 = v ∧ mid c' (D.handle op v).1 ∧ ∀ e, mid c' (.error e)) :
    Reads D C mid (Operation.perform op) c := h

theorem honorsUntil_inTransaction {c : σ} {body : Program S ε α}
    (h : ∀ c', C.later c c' → C.inv c' → (∀ e, post c' (.error e)) ∧
      BodyHonors D C c' (fun r w => match r with
        | .ok b => C.inv w ∧ C.later c' w ∧ post w (.ok b) ∧ (w = c' ∨ last c' w (.done (.ok b)))
        | .error _ => True) body c') :
    HonorsUntil D C last post (Operation.inTransaction body) c := h

variable (D C) in
/-- What a task still does, over the database `c` and the state `w` of the open transaction. -/
def TaskHonors (change : σ → σ → Prop) (post : σ → Except ε α → Prop) (c w : σ) :
    Task S ε α → Prop
  | .outside o => Honors D C change post o c
  | .inside body next => (∀ e, Honors D C change post (next (.error e)) c) ∧
      BodyHonors D C c (fun r w => match r with
        | .ok b => C.inv w ∧ C.later c w ∧ Honors D C change post (next (.ok b)) w ∧
            (w = c ∨ (next (.ok b)).Succeeded ∧ change c w)
        | .error _ => True) body w

namespace Session

variable (D C) in
/-- Every task meets the contract, and the one that is inside of a transaction has the one that is
open. -/
structure Lawful (change : ι → σ → σ → Prop) (post : ι → σ → Except ε α → Prop)
    (w : Session S ε α ι σ) : Prop where
  inv : C.inv w.committed
  seen : C.seen w.committed w.visible
  honors : ∀ i r task, w.tasks i = some (r, task) →
    TaskHonors D C (change r) (post r) w.committed w.visible task
  inside : ∀ i r task, w.tasks i = some (r, task) → task.isInside →
    ∃ t, w.inProgress = some t ∧ t.owner = i

variable {change : ι → σ → σ → Prop} {post : ι → σ → Except ε α → Prop} {w : Session S ε α ι σ}

theorem setTask_tasks (i j : ℕ) (task : Option (ι × Task S ε α)) :
    (w.setTask i task).tasks j = if j = i then task else w.tasks j := rfl

theorem Lawful.set (h : w.Lawful D C change post) {i : ℕ} {r : ι} {o : Operation S ε α}
    (ho : Honors D C (change r) (post r) o w.committed) :
    (w.setTask i (some (r, .outside o))).Lawful D C change post where
  inv := h.inv
  seen := h.seen
  honors := by
    intro j r' task hj
    rw [setTask_tasks] at hj
    split at hj
    · cases hj
      exact ho
    · exact h.honors j r' task hj
  inside := by
    intro j r' task hj hin
    rw [setTask_tasks] at hj
    split at hj
    · cases hj
      cases hin
    · exact h.inside j r' task hj hin

/-- While a task is inside of a transaction, or while none is open, no other task is. -/
def Alone (w : Session S ε α ι σ) (i : ℕ) : Prop :=
  ∀ j r task, j ≠ i → w.tasks j = some (r, task) → task.isInside = false

theorem Lawful.alone_of_inside (h : w.Lawful D C change post) {i : ℕ} {r : ι} {task : Task S ε α}
    (hi : w.tasks i = some (r, task)) (hin : task.isInside) : w.Alone i := by
  intro j r' task' hne hj
  by_contra hin'
  obtain ⟨t, ht, rfl⟩ := h.inside i r task hi hin
  obtain ⟨t', ht', rfl⟩ := h.inside j r' task' hj (by simpa using hin')
  rw [ht] at ht'
  cases ht'
  exact hne rfl

theorem Lawful.alone_of_none (h : w.Lawful D C change post) (hn : w.inProgress = none) (i : ℕ) :
    w.Alone i := by
  intro j r task _ hj
  by_contra hin
  obtain ⟨t, ht, -⟩ := h.inside j r task hj (by simpa using hin)
  rw [hn] at ht
  cases ht

/-- A step of a task next to which no other one is inside of a transaction. -/
theorem Lawful.move (hpost : ∀ r c c' a, C.later c c' → post r c a → post r c' a)
    (h : w.Lawful D C change post) {w' : Session S ε α ι σ} {i : ℕ} {r : ι} {task : Task S ε α}
    (ha : w.Alone i) (ht : w'.tasks = (w.setTask i (some (r, task))).tasks)
    (hinv : C.inv w'.committed) (hseen : C.seen w'.committed w'.visible)
    (hlater : C.later w.committed w'.committed)
    (hown : TaskHonors D C (change r) (post r) w'.committed w'.visible task)
    (hopen : task.isInside → ∃ t, w'.inProgress = some t ∧ t.owner = i) :
    w'.Lawful D C change post where
  inv := hinv
  seen := hseen
  honors := by
    intro j r' task' hj
    rw [ht, setTask_tasks] at hj
    split at hj
    · cases hj
      exact hown
    · next hne =>
      cases task' with
      | outside o => exact HonorsUntil.mono (hpost r') (h.honors j r' _ hj) hlater
      | inside body next => cases ha j r' _ hne hj
  inside := by
    intro j r' task' hj hin
    rw [ht, setTask_tasks] at hj
    split at hj
    · next he =>
      cases hj
      rw [he]
      exact hopen hin
    · next hne =>
      rw [ha j r' task' hne hj] at hin
      cases hin

/-- A statement that only reads changes nothing but the task and the record of it. -/
theorem performStatement_of_read {i : ℕ} {r : ι} {op : S.Op}
    {next : Except ε (S.Reply op) → Operation S ε α}
    (hread : (D.handle op w.visible).2 = w.visible) :
    w.performStatement D i r op next =
      { w.setTask i (some (r, .outside (next (D.handle op w.visible).1))) with
        acknowledged := w.acknowledged ++ [effect op (D.handle op w.visible).1] } := by
  obtain ⟨committed, inProgress, tasks, acknowledged⟩ := w
  cases inProgress with
  | none =>
    change (D.handle op committed).2 = committed at hread
    simp [performStatement, setTask, visible, hread]
  | some t =>
    change (D.handle op t.working).2 = t.working at hread
    simp [performStatement, setTask, visible, hread]

variable (hpost : ∀ r c c' a, C.later c c' → post r c a → post r c' a)

include hpost

theorem Lawful.advance (h : w.Lawful D C change post) (refused : ε) (i : ℕ) (fault : Option ε) :
    (w.advance D refused i fault).Lawful D C change post := by
  unfold Session.advance
  cases hi : w.tasks i with
  | none => exact h
  | some rt =>
    obtain ⟨r, task⟩ := rt
    have hm := h.honors i r task hi
    have hrefl := C.later_refl w.committed
    cases task with
    | outside o =>
      cases o with
      | done a => exact h
      | statement op next =>
        obtain ⟨hread, hnext, herr⟩ := hm w.committed w.visible hrefl h.inv h.seen
        cases fault with
        | some e => exact h.set (herr e)
        | none =>
          dsimp only
          rw [performStatement_of_read hread]
          have hs := h.set (i := i) hnext
          exact ⟨hs.inv, hs.seen, hs.honors, hs.inside⟩
      | transaction body next =>
        obtain ⟨herr, hbody⟩ := hm w.committed hrefl h.inv
        cases fault with
        | some e => exact h.set (herr e)
        | none =>
          dsimp only
          unfold begin
          cases hp : w.inProgress with
          | some t => exact h.set (herr refused)
          | none =>
            exact h.move hpost (h.alone_of_none hp i) rfl h.inv (C.seen_refl _ h.inv) hrefl
              ⟨herr, hbody⟩ fun _ => ⟨_, rfl, rfl⟩
    | inside body next =>
      have ha := h.alone_of_inside hi rfl
      obtain ⟨t, ht, hown⟩ := h.inside i r _ hi rfl
      obtain ⟨herr, hb⟩ := hm
      cases body with
      | pure b =>
        obtain ⟨hseen, hinv, hlater, hnext, -⟩ := hb
        cases fault with
        | some e =>
          exact h.move hpost ha rfl h.inv h.seen hrefl ⟨herr, hseen, trivial⟩
            fun _ => ⟨t, ht, hown⟩
        | none =>
          exact h.move hpost ha rfl hinv (C.seen_refl _ hinv) hlater hnext nofun
      | throw e =>
        exact h.move hpost ha rfl h.inv (C.seen_refl _ h.inv) hrefl (herr e) nofun
      | call op rest =>
        obtain ⟨hseen, hfault, hok⟩ := hb
        cases fault with
        | some e =>
          exact h.move hpost ha rfl h.inv h.seen hrefl ⟨herr, hfault e⟩
            fun _ => ⟨t, ht, hown⟩
        | none =>
          have ht' : (w.performInside D i r op rest next).inProgress =
              some ⟨t.owner, (D.handle op t.working).2,
                t.trace ++ effect op (D.handle op w.visible).1⟩ := by
            simp only [performInside, setTask, ht, Option.map_some]
          have hv : (w.performInside D i r op rest next).visible = (D.handle op w.visible).2 := by
            simp only [visible, ht', ht]
          refine h.move hpost ha rfl h.inv ?_ hrefl ⟨herr, ?_⟩ fun _ => ⟨_, ht', hown⟩
          · rw [hv]
            exact hok.seen
          · rw [hv]
            exact hok

theorem Lawful.step {prog : ι → Operation S ε α}
    (hprog : ∀ r c, C.inv c → Honors D C (change r) (post r) (prog r) c)
    (h : w.Lawful D C change post) (refused : ε)
    (e : SessionEvent ι ε) : (w.step D refused prog e).Lawful D C change post := by
  cases e with
  | spawn i r =>
    unfold Session.step
    dsimp only
    split
    · exact h
    · exact h.set (hprog r _ h.inv)
  | advance i fault => exact h.advance hpost refused i fault
  | restart =>
    exact ⟨h.inv, C.seen_refl _ h.inv, nofun, nofun⟩

/-- Operations that meet a contract keep it in every interleaving. -/
theorem Lawful.run {prog : ι → Operation S ε α}
    (hprog : ∀ r c, C.inv c → Honors D C (change r) (post r) (prog r) c)
    (h : w.Lawful D C change post) (refused : ε)
    (events : List (SessionEvent ι ε)) : (w.run D refused prog events).Lawful D C change post := by
  induction events generalizing w with
  | nil => exact h
  | cons e events ih => exact ih (h.step hpost hprog refused e)

omit hpost in
theorem lawful_initial {s : σ} (hs : C.inv s) :
    (initial s : Session S ε α ι σ).Lawful D C change post :=
  ⟨hs, C.seen_refl s hs, nofun, nofun⟩

omit hpost in
/-- A step changes the database only in that an operation ends successfully. -/
theorem Lawful.committed_step (h : w.Lawful D C change post) (refused : ε)
    (prog : ι → Operation S ε α) (e : SessionEvent ι ε) :
    (w.step D refused prog e).committed = w.committed ∨
      ∃ i fault r task a, e = .advance i fault ∧ w.tasks i = some (r, task) ∧
        change r w.committed (w.step D refused prog e).committed ∧
        (w.step D refused prog e).tasks i = some (r, .outside (.done (.ok a))) := by
  cases e with
  | spawn i r =>
    unfold Session.step
    dsimp only
    split <;> exact Or.inl rfl
  | restart => exact Or.inl rfl
  | advance i fault =>
    unfold Session.step Session.advance
    dsimp only
    cases hi : w.tasks i with
    | none => exact Or.inl rfl
    | some rt =>
      obtain ⟨r, task⟩ := rt
      have hm := h.honors i r task hi
      cases task with
      | outside o =>
        left
        cases o with
        | done a => rfl
        | statement op next =>
          obtain ⟨hread, -, -⟩ := hm _ _ (C.later_refl _) h.inv h.seen
          cases fault with
          | some e => rfl
          | none =>
            dsimp only
            rw [performStatement_of_read hread]
            rfl
        | transaction body next =>
          cases fault with
          | some e => rfl
          | none =>
            dsimp only
            unfold begin
            cases w.inProgress <;> rfl
      | inside body next =>
        obtain ⟨-, hb⟩ := hm
        cases body with
        | pure b =>
          obtain ⟨-, -, -, -, hlast⟩ := hb
          cases fault with
          | some e => exact Or.inl rfl
          | none =>
            rcases hlast with hsame | ⟨hlast, hchange⟩
            · exact Or.inl hsame
            · cases hn : next (.ok b) with
              | done a =>
                cases a with
                | ok a =>
                  refine Or.inr ⟨i, none, r, _, a, rfl, hi, hchange, ?_⟩
                  rw [← hn]
                  exact if_pos rfl
                | error e =>
                  rw [hn] at hlast
                  cases hlast
              | statement op rest =>
                rw [hn] at hlast
                cases hlast
              | transaction body rest =>
                rw [hn] at hlast
                cases hlast
        | throw e => exact Or.inl rfl
        | call op rest => cases fault <;> exact Or.inl rfl

end Session

end Contract

end Qualigence.Foundation
