import Qualigence.Foundation.Ledger

/-! # Operations that write into the transactions of others

A statement outside of a transaction works on the state of whichever transaction is open. A practice
says what such a statement may do, what the statements of a transaction may do meanwhile, and what a
transaction has done when it commits. Operations that keep to it move the database, as it is
committed and as it is seen, in few ways only.
-/

namespace Qualigence.Foundation

/-- What operations may do to a database, and which answers they give. -/
structure Practice (ι α σ : Type) where
  rely : σ → σ → Prop
  alone : ι → σ → σ → Option α → Prop
  within : σ → σ → Prop
  commits : ι → σ → σ → Option α → Prop
  rely_refl : ∀ s, rely s s
  rely_trans : ∀ s t u, rely s t → rely t u → rely s u
  rely_of_alone : ∀ r s t a, alone r s t a → rely s t

/-- The database as it is committed and as statements see it, and whether another operation than
the owner has written in the open transaction. -/
structure View (σ : Type) where
  committed : σ
  visible : σ
  foreign : Bool

section Moves

variable {ι α σ : Type} (P : Practice ι α σ)

/-- What one event does, when it takes back nothing that another operation wrote, and the answer it
gives. -/
inductive Moves : View σ → View σ → Option (ι × α) → Prop
  | quiet (s : View σ) : Moves s s none
  | alone {c v v' : σ} {f f' : Bool} {r : ι} {a : Option α} (h : P.alone r v v' a)
      (hf : f' = true ∨ v' = v ∧ f' = f) : Moves ⟨c, v, f⟩ ⟨c, v', f'⟩ (a.map (r, ·))
  | aloneCommitted {c v : σ} {r : ι} {a : Option α} (h : P.alone r c v a) :
      Moves ⟨c, c, false⟩ ⟨v, v, false⟩ (a.map (r, ·))
  | within {c v v' : σ} {f : Bool} (h : P.within v v') : Moves ⟨c, v, f⟩ ⟨c, v', f⟩ none
  | commit {c v : σ} {f : Bool} {r : ι} {a : Option α} (h : P.commits r c v a) :
      Moves ⟨c, v, f⟩ ⟨v, v, false⟩ (a.map (r, ·))
  | rollback (c v : σ) : Moves ⟨c, v, false⟩ ⟨c, c, false⟩ none

end Moves

/-- What an operation has returned. -/
def Operation.answer {S : Signature} {ε α : Type} : Operation S ε α → Option α
  | .done (.ok a) => some a
  | _ => none

/-- What the operation of a task has returned. -/
def Task.answer {S : Signature} {ε α : Type} : Task S ε α → Option α
  | .outside o => o.answer
  | .inside _ _ => none

section Keeps

variable {S : Signature} {ε β α ι σ : Type} (D : Database S ε σ) (P : Practice ι α σ)

/-- From the state `w` on, the body of a transaction ends in `Q`, whatever others do between its
statements and whichever of these fail. -/
def BodyKeeps (Q : β → σ → Prop) : Program S ε β → σ → Prop
  | .pure b, w => ∀ w', P.rely w w' → Q b w'
  | .throw _, _ => True
  | .call op next, w => ∀ w', P.rely w w' → P.within w' (D.handle op w').2 ∧
      (∀ e, BodyKeeps Q (next (.error e)) w') ∧
      BodyKeeps Q (next (D.handle op w').1) (D.handle op w').2

/-- The statements and transactions of an operation keep to a practice. -/
def Operation.Keeps (r : ι) : Operation S ε α → Prop
  | .done _ => True
  | .statement op next =>
    (∀ v, P.alone r v (D.handle op v).2 (next (D.handle op v).1).answer) ∧
      (∀ x, Operation.Keeps r (next x)) ∧ ∀ e, (next (.error e)).answer = none
  | .transaction body next =>
    (∀ c, BodyKeeps D P (fun b w => P.commits r c w (next (.ok b)).answer) body c) ∧
      (∀ x, Operation.Keeps r (next x)) ∧ ∀ e, (next (.error e)).answer = none

/-- What a task still does, over the database `c` and the state `w` of the open transaction. -/
def Task.Keeps (r : ι) (c w : σ) : Task S ε α → Prop
  | .outside o => o.Keeps D P r
  | .inside body next =>
    BodyKeeps D P (fun b w => P.commits r c w (next (.ok b)).answer) body w ∧
      (∀ x, (next x).Keeps D P r) ∧ ∀ e, (next (.error e)).answer = none

variable {D P} {Q Q' : β → σ → Prop} {c w w' : σ} {body : Program S ε β}

theorem BodyKeeps.rely (h : BodyKeeps D P Q body w) (hr : P.rely w w') :
    BodyKeeps D P Q body w' := by
  cases body with
  | pure b => exact fun u hu => h u (P.rely_trans _ _ _ hr hu)
  | throw e => trivial
  | call op next => exact fun u hu => h u (P.rely_trans _ _ _ hr hu)

/-- One statement in the body of a transaction, and the rest of it after a reply. -/
theorem bodyKeeps_step {op : S.Op} {f : S.Reply op → Program S ε β}
    (hwithin : ∀ w', P.rely w w' → P.within w' (D.handle op w').2)
    (h : ∀ w' a, P.rely w w' → (D.handle op w').1 = .ok a →
      BodyKeeps D P Q (f a) (D.handle op w').2) :
    BodyKeeps D P Q ((Program.perform op).bind f) w := by
  intro w' hr
  refine ⟨hwithin w' hr, fun e => trivial, ?_⟩
  cases hreply : (D.handle op w').1 with
  | ok a => exact h w' a hr hreply
  | error e => trivial

/-- The last statement in the body of a transaction. -/
theorem bodyKeeps_last {op : S.Op} {Q : S.Reply op → σ → Prop}
    (hwithin : ∀ w', P.rely w w' → P.within w' (D.handle op w').2)
    (h : ∀ w' a u, P.rely w w' → (D.handle op w').1 = .ok a → P.rely (D.handle op w').2 u → Q a u) :
    BodyKeeps D P Q (Program.perform op) w := by
  intro w' hr
  refine ⟨hwithin w' hr, fun e => trivial, ?_⟩
  cases hreply : (D.handle op w').1 with
  | ok a => exact fun u hu => h w' a u hr hreply hu
  | error e => trivial

theorem Task.Keeps.rely {r : ι} {task : Task S ε α} (h : task.Keeps D P r c w)
    (hr : P.rely w w') : task.Keeps D P r c w' := by
  cases task with
  | outside o => exact h
  | inside body next => exact ⟨h.1.rely hr, h.2⟩

/-- A task outside of transactions does not depend on the database. -/
theorem Task.Keeps.outside {r : ι} {task : Task S ε α} (h : task.Keeps D P r c w)
    (ho : task.isInside = false) (c' w' : σ) : task.Keeps D P r c' w' := by
  cases task with
  | outside o => exact h
  | inside body next => cases ho

end Keeps

namespace LedgerSession

variable {S : Signature} {ε α ι σ : Type} (isWrite : S.Op → Bool)

def view (x : LedgerSession S ε α ι σ) : View σ :=
  ⟨x.session.committed, x.session.visible, x.ledger.others.any isWrite⟩

end LedgerSession

/-- What a caller has been answered. -/
def Session.answered {S : Signature} {ε α ι σ : Type} (w : Session S ε α ι σ) (i : ℕ) :
    Option (ι × α) := (w.tasks i).bind fun (r, task) => task.answer.map (r, ·)

/-- The task that an event is about. -/
def SessionEvent.task? {ι ε : Type} : SessionEvent ι ε → Option ℕ
  | .spawn i _ => some i
  | .advance i _ => some i
  | .restart => none

namespace LedgerSession

variable {S : Signature} {ε α ι σ : Type} (D : Database S ε σ) (refused : ε)
  (prog : ι → Operation S ε α) (isWrite : S.Op → Bool) (P : Practice ι α σ)

/-- The answer that an event gives to the caller of an operation. -/
def answer (x : LedgerSession S ε α ι σ) (e : SessionEvent ι ε) : Option (ι × α) :=
  match e.task? with
  | some i => if (x.session.answered i).isSome then none
    else (x.step D refused prog e).session.answered i
  | none => none

/-- The answers of a history, in their order. -/
def answers (x : LedgerSession S ε α ι σ) : List (SessionEvent ι ε) → List (ι × α)
  | [] => []
  | e :: events =>
    (x.answer D refused prog e).toList ++ answers (x.step D refused prog e) events

/-- Every task keeps to a practice. -/
structure Practised (x : LedgerSession S ε α ι σ) : Prop where
  tasks : ∀ i r task, x.session.tasks i = some (r, task) →
    task.Keeps D P r x.session.committed x.session.visible
  inside : ∀ i r task, x.session.tasks i = some (r, task) → task.isInside →
    ∃ t, x.session.inProgress = some t ∧ t.owner = i
  closed : x.session.inProgress = none → x.ledger.others = []

variable {D refused prog isWrite P} {x : LedgerSession S ε α ι σ}

theorem practised_initial (s : σ) : (initial s : LedgerSession S ε α ι σ).Practised D P where
  tasks := nofun
  inside := nofun
  closed := fun _ => rfl

/-- A task is replaced by one that keeps to the practice, and the others see what a statement of
it may do. -/
theorem Practised.set {y : LedgerSession S ε α ι σ} {i : ℕ} {r : ι}
    {task : Task S ε α} (ht : y.session.tasks = (x.session.setTask i (some (r, task))).tasks)
    (hk : task.Keeps D P r y.session.committed y.session.visible)
    (hothers : ∀ j r' task', j ≠ i → x.session.tasks j = some (r', task') →
      task'.Keeps D P r' y.session.committed y.session.visible)
    (hin : ∀ j r' task', j ≠ i → x.session.tasks j = some (r', task') → task'.isInside →
      ∃ t, y.session.inProgress = some t ∧ t.owner = j)
    (hown : task.isInside → ∃ t, y.session.inProgress = some t ∧ t.owner = i)
    (hclosed : y.session.inProgress = none → y.ledger.others = []) : y.Practised D P where
  closed := hclosed
  tasks := by
    intro j r' task' hj
    rw [ht, Session.setTask_tasks] at hj
    split at hj
    · cases hj
      exact hk
    · next hne => exact hothers j r' task' hne hj
  inside := by
    intro j r' task' hj hin'
    rw [ht, Session.setTask_tasks] at hj
    split at hj
    · next he =>
      cases hj
      rw [he]
      exact hown hin'
    · next hne => exact hin j r' task' hne hj hin'

/-- While a task is inside of a transaction, no other is. -/
theorem Practised.others_outside (h : x.Practised D P) {i j : ℕ} {r r' : ι} {task task' : Task S ε α}
    (hi : x.session.tasks i = some (r, task)) (hin : task.isInside)
    (hj : x.session.tasks j = some (r', task')) (hne : j ≠ i) : task'.isInside = false := by
  by_contra hin'
  obtain ⟨t, ht, rfl⟩ := h.inside i r task hi hin
  obtain ⟨t', ht', rfl⟩ := h.inside j r' task' hj (by simpa using hin')
  rw [ht] at ht'
  cases ht'
  exact hne rfl

theorem Practised.outside_of_none (h : x.Practised D P) (hn : x.session.inProgress = none) {j : ℕ}
    {r' : ι} {task' : Task S ε α} (hj : x.session.tasks j = some (r', task')) :
    task'.isInside = false := by
  by_contra hin
  obtain ⟨t, ht, -⟩ := h.inside j r' task' hj (by simpa using hin)
  cases hn.symm.trans ht

/-- A step in which a task performs nothing. -/
theorem Practised.quiet (h : x.Practised D P) {i : ℕ} {r : ι} {task : Task S ε α}
    (hk : task.Keeps D P r x.session.committed x.session.visible)
    (hown : task.isInside → ∃ t, x.session.inProgress = some t ∧ t.owner = i) :
    (⟨x.session.setTask i (some (r, task)), x.ledger⟩ : LedgerSession S ε α ι σ).Practised D P :=
  .set rfl hk (fun j r' task' _ hj => h.tasks j r' task' hj)
    (fun j r' task' _ hj => h.inside j r' task' hj) hown h.closed

theorem view_ext {s t : View σ} (hc : s.committed = t.committed) (hv : s.visible = t.visible)
    (hf : s.foreign = t.foreign) : s = t := by
  cases s
  cases t
  cases hc
  cases hv
  cases hf
  rfl

/-- The answer of a step, from the task before and after it. -/
theorem answer_of_tasks {i : ℕ} {fault : Option ε} {r : ι} {task : Task S ε α}
    (task' : Task S ε α) (hi : x.session.tasks i = some (r, task)) (ht : task.answer = none)
    (hi' : (x.step D refused prog (.advance i fault)).session.tasks i = some (r, task')) :
    x.answer D refused prog (.advance i fault) = task'.answer.map (r, ·) := by
  have hold : x.session.answered i = none := by simp [Session.answered, hi, ht]
  have hnew : (x.step D refused prog (.advance i fault)).session.answered i =
      task'.answer.map (r, ·) := by simp [Session.answered, hi']
  simp [answer, SessionEvent.task?, hold, hnew]

theorem answer_of_same {e : SessionEvent ι ε} (hs : x.step D refused prog e = x) :
    x.answer D refused prog e = none := by
  unfold answer
  rw [hs]
  cases e.task? with
  | none => rfl
  | some i => cases h : x.session.answered i <;> simp [h]

variable (D refused prog isWrite P) in
/-- What one event does and answers, and that the tasks keep to the practice. -/
def StepsWell (x : LedgerSession S ε α ι σ) (e : SessionEvent ι ε) : Prop :=
  Moves P (x.view isWrite) ((x.step D refused prog e).view isWrite) (x.answer D refused prog e) ∧
    (x.step D refused prog e).Practised D P

theorem StepsWell.of_same {e : SessionEvent ι ε} (h : x.Practised D P)
    (hs : x.step D refused prog e = x) : x.StepsWell D refused prog isWrite P e := by
  unfold StepsWell
  rw [answer_of_same hs, hs]
  exact ⟨.quiet _, h⟩

/-- The next statement of a task fails, or its transaction is refused. -/
theorem StepsWell.of_setTask {i : ℕ} {fault : Option ε} {r : ι} {task : Task S ε α}
    (task' : Task S ε α) (h : x.Practised D P) (hi : x.session.tasks i = some (r, task)) (ht : task.answer = none)
    (hs : x.step D refused prog (.advance i fault) =
      ⟨x.session.setTask i (some (r, task')), x.ledger⟩)
    (hk : task'.Keeps D P r x.session.committed x.session.visible) (ht' : task'.answer = none)
    (hown : task'.isInside → ∃ t, x.session.inProgress = some t ∧ t.owner = i) :
    x.StepsWell D refused prog isWrite P (.advance i fault) := by
  have hi' : (x.step D refused prog (.advance i fault)).session.tasks i = some (r, task') := by
    rw [hs]
    exact if_pos rfl
  unfold StepsWell
  rw [answer_of_tasks task' hi ht hi', ht', hs]
  exact ⟨.quiet _, h.quiet hk hown⟩

theorem tasks_performStatement {w : Session S ε α ι σ} (i : ℕ) (r : ι) (op : S.Op)
    (next : Except ε (S.Reply op) → Operation S ε α) :
    (w.performStatement D i r op next).tasks =
      (w.setTask i (some (r, .outside (next (D.handle op w.visible).1)))).tasks := by
  obtain ⟨committed, inProgress, tasks, acknowledged⟩ := w
  cases inProgress <;> rfl

theorem step_statement {i : ℕ} {r : ι} {op : S.Op}
    {next : Except ε (S.Reply op) → Operation S ε α}
    (hi : x.session.tasks i = some (r, .outside (.statement op next))) :
    x.step D refused prog (.advance i none) = ⟨x.session.performStatement D i r op next,
      x.ledger.add x.session (Session.effect op (D.handle op x.session.visible).1)⟩ := by
  simp only [step, Session.step, Session.advance, Ledger.step, Ledger.advance, hi]

/-- A task outside of transactions performs a statement. -/
theorem StepsWell.of_performStatement (hD : ∀ op s, isWrite op = false → (D.handle op s).2 = s)
    {i : ℕ} {r : ι} {op : S.Op} {next : Except ε (S.Reply op) → Operation S ε α}
    (h : x.Practised D P) (hi : x.session.tasks i = some (r, .outside (.statement op next))) :
    x.StepsWell D refused prog isWrite P (.advance i none) := by
  obtain ⟨halone, hnext, -⟩ : (∀ v, P.alone r v _ _) ∧ (∀ y, (next y).Keeps D P r) ∧ _ :=
    h.tasks i r _ hi
  have hs : x.step D refused prog (.advance i none) = _ := step_statement hi
  have hi' : (x.step D refused prog (.advance i none)).session.tasks i =
      some (r, .outside (next (D.handle op x.session.visible).1)) := by
    rw [hs]
    exact (congrFun (tasks_performStatement i r op next) i).trans (if_pos rfl)
  unfold StepsWell
  rw [answer_of_tasks _ hi rfl hi', hs]
  clear hi' hs
  obtain ⟨⟨committed, inProgress, tasks, acknowledged⟩, ⟨log, inside, others⟩⟩ := x
  cases inProgress with
  | none =>
    have hothers : others = [] := h.closed rfl
    subst hothers
    refine ⟨.aloneCommitted (halone committed), .set rfl (hnext _) ?_ ?_ nofun fun _ => rfl⟩
    · exact fun j r' task' _ hj => (h.tasks j r' task' hj).outside (h.outside_of_none rfl hj) _ _
    · exact fun j r' task' _ hj hin => absurd hin (by simp [h.outside_of_none rfl hj])
  | some t =>
    refine ⟨.alone (halone t.working) ?_, .set rfl (hnext _) ?_ ?_ nofun nofun⟩
    · change (others ++ Session.effect op (D.handle op t.working).1).any isWrite = true ∨
        (D.handle op t.working).2 = t.working ∧
          (others ++ Session.effect op (D.handle op t.working).1).any isWrite = others.any isWrite
      cases hreply : (D.handle op t.working).1 with
      | error e => simp [Session.effect, D.unchanged_of_error op t.working e hreply]
      | ok a =>
        cases hw : isWrite op with
        | true => simp [Session.effect, hw]
        | false => simp [Session.effect, hw, hD op t.working hw]
    · exact fun j r' task' _ hj =>
        (h.tasks j r' task' hj).rely (P.rely_of_alone _ _ _ _ (halone t.working))
    · intro j r' task' _ hj hin
      obtain ⟨t', ht', rfl⟩ := h.inside j r' task' hj hin
      cases ht'
      exact ⟨_, rfl, rfl⟩

/-- A task begins its transaction. -/
theorem StepsWell.of_begin {i : ℕ} {r : ι} {β : Type} {body : Program S ε β}
    {next : Except ε β → Operation S ε α} (h : x.Practised D P)
    (hi : x.session.tasks i = some (r, .outside (.transaction body next))) :
    x.StepsWell D refused prog isWrite P (.advance i none) := by
  obtain ⟨hbody, hnext, herr⟩ : (∀ c, BodyKeeps D P _ body c) ∧ (∀ y, (next y).Keeps D P r) ∧ _ :=
    h.tasks i r _ hi
  have hs : x.step D refused prog (.advance i none) =
      ⟨x.session.begin refused i r body next, x.ledger⟩ := by
    simp only [step, Session.step, Session.advance, Ledger.step, Ledger.advance, hi]
  cases hp : x.session.inProgress with
  | some t =>
    refine .of_setTask (.outside (next (.error refused))) h hi rfl ?_ (hnext _) (herr refused)
      (fun h => by cases h)
    rw [hs]
    unfold Session.begin
    rw [hp]
  | none =>
    have hs' : x.session.begin refused i r body next =
        { x.session.setTask i (some (r, .inside body next)) with
          inProgress := some ⟨i, x.session.committed, []⟩ } := by
      unfold Session.begin
      rw [hp]
    rw [hs'] at hs
    have hv : x.session.visible = x.session.committed := by
      unfold Session.visible
      rw [hp]
    unfold StepsWell
    rw [answer_of_tasks (.inside body next) hi rfl (by rw [hs]; exact if_pos rfl), hs]
    refine ⟨?_, .set rfl ⟨hbody _, hnext, herr⟩ ?_ ?_ (fun _ => ⟨_, rfl, rfl⟩) (fun h => by cases h)⟩
    · have hview : x.view isWrite =
          ⟨x.session.committed, x.session.committed, x.ledger.others.any isWrite⟩ :=
        view_ext rfl hv rfl
      rw [hview]
      exact .quiet _
    · exact fun j r' task' _ hj => (h.tasks j r' task' hj).outside (h.outside_of_none hp hj) _ _
    · exact fun j r' task' _ hj hin => absurd hin (by simp [h.outside_of_none hp hj])

/-- A task performs a statement of its transaction. -/
theorem StepsWell.of_performInside {i : ℕ} {r : ι} {β : Type} {op : S.Op}
    {rest : Except ε (S.Reply op) → Program S ε β} {next : Except ε β → Operation S ε α}
    (h : x.Practised D P) (hi : x.session.tasks i = some (r, .inside (.call op rest) next)) :
    x.StepsWell D refused prog isWrite P (.advance i none) := by
  obtain ⟨hbody, hnext⟩ : BodyKeeps D P _ (.call op rest) x.session.visible ∧ _ :=
    h.tasks i r _ hi
  obtain ⟨hwithin, -, hrest⟩ := hbody _ (P.rely_refl _)
  have hs : x.step D refused prog (.advance i none) =
      ⟨x.session.performInside D i r op rest next, ⟨x.ledger.log,
        x.ledger.inside ++ Session.effect op (D.handle op x.session.visible).1,
        x.ledger.others⟩⟩ := by
    simp only [step, Session.step, Session.advance, Ledger.step, Ledger.advance, hi]
  obtain ⟨t, ht, hown⟩ := h.inside i r _ hi rfl
  have hv : x.session.visible = t.working := by
    unfold Session.visible
    rw [ht]
  have hp : (x.session.performInside D i r op rest next).inProgress =
      some ⟨t.owner, (D.handle op t.working).2,
        t.trace ++ Session.effect op (D.handle op x.session.visible).1⟩ := by
    unfold Session.performInside
    rw [ht]
    rfl
  have hv' : (x.session.performInside D i r op rest next).visible =
      (D.handle op x.session.visible).2 := by
    rw [hv]
    unfold Session.visible
    rw [hp]
  unfold StepsWell
  rw [answer_of_tasks (.inside (rest (D.handle op x.session.visible).1) next) hi rfl
    (by rw [hs]; exact if_pos rfl), hs]
  refine ⟨?_, .set rfl ?_ ?_ ?_ (fun _ => ⟨_, hp, hown⟩) fun hn => by cases hp.symm.trans hn⟩
  · unfold view
    rw [hv']
    exact .within hwithin
  · rw [hv']
    exact ⟨hrest, hnext⟩
  · exact fun j r' task' hne hj =>
      (h.tasks j r' task' hj).outside (h.others_outside hi rfl hj hne) _ _
  · exact fun j r' task' hne hj hin => absurd hin (by simp [h.others_outside hi rfl hj hne])

/-- A task commits its transaction. -/
theorem StepsWell.of_commit {i : ℕ} {r : ι} {β : Type} {b : β}
    {next : Except ε β → Operation S ε α} (h : x.Practised D P)
    (hi : x.session.tasks i = some (r, .inside (.pure b) next)) :
    x.StepsWell D refused prog isWrite P (.advance i none) := by
  obtain ⟨hbody, hnext, -⟩ : BodyKeeps D P _ (.pure b) x.session.visible ∧
    (∀ y, (next y).Keeps D P r) ∧ _ := h.tasks i r _ hi
  have hs : x.step D refused prog (.advance i none) =
      ⟨x.session.commit i r b next, x.ledger.keep⟩ := by
    simp only [step, Session.step, Session.advance, Ledger.step, Ledger.advance, hi]
  unfold StepsWell
  rw [answer_of_tasks (.outside (next (.ok b))) hi rfl
    (by rw [hs]; exact if_pos rfl), hs]
  refine ⟨.commit (hbody _ (P.rely_refl _)), .set rfl (hnext _) ?_ ?_ (fun h => by cases h) fun _ => rfl⟩
  · exact fun j r' task' hne hj =>
      (h.tasks j r' task' hj).outside (h.others_outside hi rfl hj hne) _ _
  · exact fun j r' task' hne hj hin => absurd hin (by simp [h.others_outside hi rfl hj hne])

/-- A task rolls its transaction back, in which no other operation has written. -/
theorem StepsWell.of_rollback {i : ℕ} {fault : Option ε} {r : ι} {β : Type} {e : ε}
    {next : Except ε β → Operation S ε α} (h : x.Practised D P)
    (hi : x.session.tasks i = some (r, .inside (.throw e) next))
    (hf : x.ledger.others.any isWrite = false) :
    x.StepsWell D refused prog isWrite P (.advance i fault) := by
  obtain ⟨-, hnext, herr⟩ : _ ∧ (∀ y, (next y).Keeps D P r) ∧ _ := h.tasks i r _ hi
  have hs : x.step D refused prog (.advance i fault) =
      ⟨x.session.rollback i r e next, x.ledger.drop⟩ := by
    simp only [step, Session.step, Session.advance, Ledger.step, Ledger.advance, hi]
  unfold StepsWell
  rw [answer_of_tasks (.outside (next (.error e))) hi rfl
    (by rw [hs]; exact if_pos rfl), hs]
  have hview : x.view isWrite = ⟨x.session.committed, x.session.visible, false⟩ :=
    view_ext rfl rfl hf
  rw [hview, Task.answer, herr e]
  refine ⟨.rollback _ _, .set rfl (hnext _) ?_ ?_ (fun h => by cases h) fun _ => rfl⟩
  · exact fun j r' task' hne hj =>
      (h.tasks j r' task' hj).outside (h.others_outside hi rfl hj hne) _ _
  · exact fun j r' task' hne hj hin => absurd hin (by simp [h.others_outside hi rfl hj hne])

theorem any_eq_false_of_filter {p : S.Op → Bool} {ops : List S.Op} (h : ops.filter p = []) :
    ops.any p = false := by
  rw [List.any_eq_false]
  exact fun op hop hp => List.filter_eq_nil_iff.mp h op hop hp

section Run

variable (hD : ∀ op s, isWrite op = false → (D.handle op s).2 = s)
  (hprog : ∀ r, (prog r).Keeps D P r ∧ (prog r).answer = none)
include hD hprog

/-- An event that takes back nothing that another operation wrote. -/
theorem Practised.step (h : x.Practised D P) {e : SessionEvent ι ε}
    (hkeep : x.KeepsOthers isWrite e) : x.StepsWell D refused prog isWrite P e := by
  cases e with
  | spawn i r =>
    cases hi : x.session.tasks i with
    | some task =>
      refine .of_same h ?_
      simp only [LedgerSession.step, Session.step, Ledger.step, hi]
    | none =>
      have hs : x.step D refused prog (.spawn i r) =
          ⟨x.session.setTask i (some (r, .outside (prog r))), x.ledger⟩ := by
        simp only [LedgerSession.step, Session.step, Ledger.step, hi]
      have hans : x.answer D refused prog (.spawn i r) = none := by
        simp [answer, SessionEvent.task?, Session.answered, hi, hs, Session.setTask, Task.answer,
          (hprog r).2]
      unfold StepsWell
      rw [hans, hs]
      exact ⟨.quiet _, h.quiet (hprog r).1 nofun⟩
  | restart =>
    have hf := any_eq_false_of_filter (hkeep trivial)
    have hview : x.view isWrite = ⟨x.session.committed, x.session.visible, false⟩ :=
      view_ext rfl rfl hf
    unfold StepsWell
    rw [hview]
    exact ⟨.rollback _ _, nofun, nofun, fun _ => rfl⟩
  | advance i fault =>
    cases hi : x.session.tasks i with
    | none =>
      refine .of_same h ?_
      simp only [LedgerSession.step, Session.step, Session.advance, Ledger.step, Ledger.advance, hi]
    | some rt =>
      obtain ⟨r, task⟩ := rt
      have hk := h.tasks i r task hi
      cases task with
      | outside o =>
        cases o with
        | done a =>
          refine .of_same h ?_
          simp only [LedgerSession.step, Session.step, Session.advance, Ledger.step, Ledger.advance,
            hi]
        | statement op next =>
          cases fault with
          | none => exact .of_performStatement hD h hi
          | some e =>
            refine .of_setTask (.outside (next (.error e))) h hi rfl ?_ (hk.2.1 _) (hk.2.2 e) nofun
            simp only [LedgerSession.step, Session.step, Session.advance, Ledger.step,
              Ledger.advance, hi]
        | transaction body next =>
          cases fault with
          | none => exact .of_begin h hi
          | some e =>
            refine .of_setTask (.outside (next (.error e))) h hi rfl ?_ (hk.2.1 _) (hk.2.2 e) nofun
            simp only [LedgerSession.step, Session.step, Session.advance, Ledger.step,
              Ledger.advance, hi]
      | inside body next =>
        have hown := h.inside i r _ hi rfl
        cases body with
        | pure b =>
          cases fault with
          | none => exact .of_commit h hi
          | some e =>
            refine .of_setTask (.inside (.throw e) next) h hi rfl ?_ ⟨trivial, hk.2⟩ rfl
              fun _ => hown
            simp only [LedgerSession.step, Session.step, Session.advance, Ledger.step,
              Ledger.advance, hi]
        | throw e => exact .of_rollback h hi (any_eq_false_of_filter (hkeep ⟨r, _, e, next, hi⟩))
        | call op rest =>
          cases fault with
          | none => exact .of_performInside h hi
          | some e =>
            refine .of_setTask (.inside (rest (.error e)) next) h hi rfl ?_
              ⟨(hk.1 _ (P.rely_refl _)).2.1 e, hk.2⟩ rfl fun _ => hown
            simp only [LedgerSession.step, Session.step, Session.advance, Ledger.step,
              Ledger.advance, hi]

/-- What every move keeps of the answers given and of the database, every history keeps in which no
rollback takes back what another operation wrote. -/
theorem Practised.run {J : List (ι × α) → View σ → Prop}
    (hJ : ∀ given s t a, J given s → Moves P s t a → J (given ++ a.toList) t)
    (h : x.Practised D P) {given : List (ι × α)} (hx : J given (x.view isWrite))
    {events : List (SessionEvent ι ε)}
    (hm : Meets (LedgerSession.step D refused prog) (KeepsOthers isWrite) x events) :
    J (given ++ x.answers D refused prog events) ((x.run D refused prog events).view isWrite) ∧
      (x.run D refused prog events).Practised D P := by
  induction events generalizing x given with
  | nil =>
    rw [answers, List.append_nil]
    exact ⟨hx, h⟩
  | cons e events ih =>
    obtain ⟨hmove, h'⟩ : x.StepsWell D refused prog isWrite P e := h.step hD hprog hm.1
    have hnext := ih h' (hJ _ _ _ _ hx hmove) hm.2
    rw [List.append_assoc] at hnext
    exact hnext

end Run

end LedgerSession

end Qualigence.Foundation
