import Qualigence.Foundation.Session

/-! # Transactions that read what is committed

Every request runs in a transaction of its own. Its statements work on what is committed and on what
the transaction wrote itself; a statement that changes a resource locks it until the transaction
ends, and waits while another transaction has it. What a transaction wrote is kept as its
statements: nobody else changes what they touched, so that they do the same on whatever is
committed meanwhile. After a statement has failed, a transaction can only be rolled back.
-/

namespace Qualigence.Foundation

/-- A database with what a statement that was answered locks, and when a resource is the same. -/
structure LockingDatabase (S : Signature) (ε σ κ : Type) extends Database S ε σ where
  locks : (op : S.Op) → S.Reply op → List κ
  same : κ → σ → σ → Prop
  same_refl : ∀ k s, same k s s
  same_trans : ∀ k s t u, same k s t → same k t u → same k s u

namespace LockingDatabase

variable {S : Signature} {ε σ κ : Type}

/-- A database after the writes of a transaction. -/
def replay (D : LockingDatabase S ε σ κ) (writes : List S.Op) (s : σ) : σ :=
  writes.foldl (fun s op => (D.handle op s).2) s

end LockingDatabase

inductive TransactionState (S : Signature) (ε α : Type) where
  | running (body : Program S ε α) (writes : List S.Op)
  | failed (body : Program S ε α)
  | ended (r : Except ε α)

/-- What is committed, the transactions, and who has locked what. -/
structure LockingSession (S : Signature) (ε α ι σ κ : Type) where
  committed : σ
  transactions : ℕ → Option (ι × TransactionState S ε α)
  locked : List (ℕ × κ)

namespace LockingSession

variable {S : Signature} {ε α ι σ κ : Type} [DecidableEq κ]

def initial (s : σ) : LockingSession S ε α ι σ κ := ⟨s, fun _ => none, []⟩

def setTransaction (w : LockingSession S ε α ι σ κ) (i : ℕ)
    (t : Option (ι × TransactionState S ε α)) : LockingSession S ε α ι σ κ :=
  { w with transactions := fun j => if j = i then t else w.transactions j }

/-- End a transaction, which releases what it locked. -/
def finish (w : LockingSession S ε α ι σ κ) (i : ℕ) (r : ι) (result : Except ε α) :
    LockingSession S ε α ι σ κ :=
  { w.setTransaction i (some (r, .ended result)) with
    locked := w.locked.filter fun l => l.1 ≠ i }

/-- Another transaction has locked one of the resources. -/
def blocked (w : LockingSession S ε α ι σ κ) (i : ℕ) (keys : List κ) : Bool :=
  w.locked.any fun l => l.1 ≠ i ∧ l.2 ∈ keys

section Step

variable (D : LockingDatabase S ε σ κ) (aborted : ε) (w : LockingSession S ε α ι σ κ)

/-- A statement on what the transaction sees, which may have to wait. -/
def perform (i : ℕ) (r : ι) (op : S.Op) (next : Except ε (S.Reply op) → Program S ε α)
    (writes : List S.Op) : LockingSession S ε α ι σ κ :=
  match (D.handle op (D.replay writes w.committed)).1 with
  | .error e => w.setTransaction i (some (r, .failed (next (.error e))))
  | .ok a =>
    if w.blocked i (D.locks op a) then w
    else
      { w.setTransaction i (some (r, .running (next (.ok a)) (writes ++ [op]))) with
        locked := w.locked ++ (D.locks op a).map (i, ·) }

/-- The next step of a transaction. A fault is what its statement or its commit fails with. -/
def advance (i : ℕ) (fault : Option ε) : LockingSession S ε α ι σ κ :=
  match w.transactions i with
  | none => w
  | some (_, .ended _) => w
  | some (r, .failed body) =>
    match body with
    | .pure _ => w.finish i r (.error aborted)
    | .throw e => w.finish i r (.error e)
    | .call _ next => w.setTransaction i (some (r, .failed (next (.error aborted))))
  | some (r, .running body writes) =>
    match body, fault with
    | .pure a, none => { w.finish i r (.ok a) with committed := D.replay writes w.committed }
    | .pure _, some e => w.finish i r (.error e)
    | .throw e, _ => w.finish i r (.error e)
    | .call _ next, some e => w.setTransaction i (some (r, .failed (next (.error e))))
    | .call op next, none => w.perform D i r op next writes

/-- One event. A restart rolls every open transaction back. -/
def step (prog : ι → Program S ε α) : SessionEvent ι ε → LockingSession S ε α ι σ κ
  | .spawn i r =>
    match w.transactions i with
    | some _ => w
    | none => w.setTransaction i (some (r, .running (prog r) []))
  | .advance i fault => w.advance D aborted i fault
  | .restart => { w with transactions := fun _ => none, locked := [] }

def run (prog : ι → Program S ε α) : List (SessionEvent ι ε) → LockingSession S ε α ι σ κ :=
  List.foldl (fun w e => w.step D aborted prog e) w

end Step

end LockingSession

section Contract

variable {S : Signature} {ε α ι σ κ : Type} (D : LockingDatabase S ε σ κ) (C : Contract σ)

/-- What may happen while a transaction holds its locks. -/
structure Meanwhile (held : List κ) (s t : σ) : Prop where
  inv : C.inv t
  later : C.later s t
  same : ∀ k ∈ held, D.same k s t

/-- Over the database `c`, or any that it may become while the locks are held, a transaction that
wrote `writes` commits only what keeps the contract and changes nothing but what it has locked. -/
def LockHonors (change : σ → σ → Prop) (post : σ → Except ε α → Prop) :
    Program S ε α → List S.Op → List κ → σ → Prop
  | .pure a, writes, held, c => ∀ c', Meanwhile D C held c c' →
      let t := D.replay writes c'
      C.inv t ∧ C.later c' t ∧ (∀ k, k ∉ held → D.same k c' t) ∧ post t (.ok a) ∧
        (t = c' ∨ change c' t)
  | .throw _, _, _, _ => True
  | .call op next, writes, held, c => ∀ c' a, Meanwhile D C held c c' →
      (D.handle op (D.replay writes c')).1 = .ok a →
      LockHonors change post (next (.ok a)) (writes ++ [op]) (held ++ D.locks op a) c'

variable {D C} {change : σ → σ → Prop} {post : σ → Except ε α → Prop}

theorem Meanwhile.refl {held : List κ} {s : σ} (h : C.inv s) : Meanwhile D C held s s :=
  ⟨h, C.later_refl s, fun k _ => D.same_refl k s⟩

theorem Meanwhile.trans {held : List κ} {s t u : σ} (h : Meanwhile D C held s t)
    (h' : Meanwhile D C held t u) : Meanwhile D C held s u :=
  ⟨h'.inv, C.later_trans _ _ _ h.later h'.later,
    fun k hk => D.same_trans k s t u (h.same k hk) (h'.same k hk)⟩

theorem Meanwhile.mono {held held' : List κ} {s t : σ} (h : Meanwhile D C held s t)
    (hs : ∀ k ∈ held', k ∈ held) : Meanwhile D C held' s t :=
  ⟨h.inv, h.later, fun k hk => h.same k (hs k hk)⟩

theorem LockHonors.meanwhile {body : Program S ε α} {writes : List S.Op} {held : List κ} {c c' : σ}
    (h : LockHonors D C change post body writes held c) (hm : Meanwhile D C held c c') :
    LockHonors D C change post body writes held c' := by
  cases body with
  | pure a => exact fun c'' hm' => h c'' (hm.trans hm')
  | throw e => trivial
  | call op next => exact fun c'' a hm' => h c'' a (hm.trans hm')

/-- A statement, and the rest of the transaction after its reply. -/
theorem lockHonors_step {op : S.Op} {f : S.Reply op → Program S ε α} {writes : List S.Op}
    {held : List κ} {c : σ} (h : ∀ c' a, Meanwhile D C held c c' →
      (D.handle op (D.replay writes c')).1 = .ok a →
      LockHonors D C change post (f a) (writes ++ [op]) (held ++ D.locks op a) c') :
    LockHonors D C change post ((Program.perform op).bind f) writes held c := h

variable (D C change post) in
/-- A transaction that has changed nothing so far. -/
def QuietHonors (body : Program S ε α) (held : List κ) (c : σ) : Prop :=
  ∀ writes, (∀ s, D.replay writes s = s) → LockHonors D C change post body writes held c

theorem LockingDatabase.replay_append (writes : List S.Op) (op : S.Op) (s : σ) :
    D.replay (writes ++ [op]) s = (D.handle op (D.replay writes s)).2 := by
  rw [replay, List.foldl_append]
  rfl

/-- A statement that changes nothing. -/
theorem quietHonors_step {op : S.Op} {f : S.Reply op → Program S ε α} {held : List κ} {c : σ}
    (hread : ∀ s, (D.handle op s).2 = s)
    (h : ∀ c' a, Meanwhile D C held c c' → (D.handle op c').1 = .ok a →
      QuietHonors D C change post (f a) (held ++ D.locks op a) c') :
    QuietHonors D C change post ((Program.perform op).bind f) held c := by
  intro writes hw
  apply lockHonors_step
  intro c' a hm hr
  rw [hw] at hr
  apply h c' a hm hr
  intro s
  rw [LockingDatabase.replay_append, hw, hread]

/-- A statement that changes nothing and locks nothing. -/
theorem quietHonors_read {op : S.Op} {f : S.Reply op → Program S ε α} {held : List κ} {c : σ}
    (hread : ∀ s, (D.handle op s).2 = s) (hlocks : ∀ a, D.locks op a = [])
    (h : ∀ c' a, Meanwhile D C held c c' → (D.handle op c').1 = .ok a →
      QuietHonors D C change post (f a) held c') :
    QuietHonors D C change post ((Program.perform op).bind f) held c := by
  apply quietHonors_step hread
  intro c' a hm hr
  rw [hlocks, List.append_nil]
  exact h c' a hm hr

/-- A transaction that changed nothing ends. -/
theorem quietHonors_pure {a : α} {held : List κ} {c : σ}
    (h : ∀ c', Meanwhile D C held c c' → post c' (.ok a)) :
    QuietHonors D C change post (.pure a) held c := by
  intro writes hw c' hm
  rw [hw]
  exact ⟨hm.inv, C.later_refl c', fun k _ => D.same_refl k c', h c' hm, Or.inl rfl⟩

theorem quietHonors_throw {e : ε} {held : List κ} {c : σ} :
    QuietHonors D C change post (.throw e : Program S ε α) held c := fun _ _ => trivial

/-- Holding more locks only helps. -/
theorem LockHonors.mono {body : Program S ε α} {writes : List S.Op} {held held' : List κ} {c : σ}
    (h : LockHonors D C change post body writes held c) (hs : ∀ k ∈ held, k ∈ held') :
    LockHonors D C change post body writes held' c := by
  induction body generalizing writes held held' c with
  | pure a =>
    intro c' hm
    obtain ⟨hinv, hlater, hsame, hrest⟩ := h c' (hm.mono hs)
    exact ⟨hinv, hlater, fun k hk => hsame k fun hk' => hk (hs k hk'), hrest⟩
  | throw e => trivial
  | call op next ih =>
    intro c' a hm hr
    refine ih _ (h c' a (hm.mono hs) hr) fun k hk => ?_
    rcases List.mem_append.mp hk with hk | hk
    · exact List.mem_append_left _ (hs k hk)
    · exact List.mem_append_right _ hk

namespace LockingSession

/-- What a transaction has locked. -/
def held (w : LockingSession S ε α ι σ κ) (i : ℕ) : List κ :=
  (w.locked.filter fun l => l.1 = i).map (·.2)

theorem mem_held {w : LockingSession S ε α ι σ κ} {i : ℕ} {k : κ} :
    k ∈ w.held i ↔ (i, k) ∈ w.locked := by
  simp [held]

variable (D C) in
/-- Every running transaction honors the contract, and no resource is locked twice. -/
structure Lawful (change : ι → σ → σ → Prop) (post : ι → σ → Except ε α → Prop)
    (w : LockingSession S ε α ι σ κ) : Prop where
  inv : C.inv w.committed
  running : ∀ i r body writes, w.transactions i = some (r, .running body writes) →
    LockHonors D C (change r) (post r) body writes (w.held i) w.committed
  ended : ∀ i r result, w.transactions i = some (r, .ended result) → post r w.committed result
  exclusive : ∀ i j k, (i, k) ∈ w.locked → (j, k) ∈ w.locked → i = j

variable {change : ι → σ → σ → Prop} {post : ι → σ → Except ε α → Prop}
  {w : LockingSession S ε α ι σ κ}

theorem Lawful.meanwhile_refl (h : w.Lawful D C change post) (held : List κ) :
    Meanwhile D C held w.committed w.committed := .refl h.inv

theorem setTransaction_transactions (i j : ℕ) (t : Option (ι × TransactionState S ε α)) :
    (w.setTransaction i t).transactions j = if j = i then t else w.transactions j := rfl

/-- What everybody has locked after one transaction locked more. -/
theorem keys_append (locked : List (ℕ × κ)) (keys : List κ) (i j : ℕ) :
    ((locked ++ keys.map (i, ·)).filter fun l => decide (l.1 = j)).map (·.2) =
      (locked.filter fun l => decide (l.1 = j)).map (·.2) ++ if j = i then keys else [] := by
  rw [List.filter_append, List.map_append]
  congr 1
  split
  · next he =>
    rw [List.filter_eq_self.mpr (by simp [he]), List.map_map]
    exact List.map_id keys
  · next hne =>
    rw [List.filter_eq_nil_iff.mpr (by simp [Ne.symm hne]), List.map_nil]

theorem held_finish_of_ne {i j : ℕ} {r : ι} {result : Except ε α} (hne : j ≠ i) :
    (w.finish i r result).held j = w.held j := by
  simp only [held, finish, List.filter_filter]
  congr 1
  apply List.filter_congr
  intro l _
  by_cases hj : l.1 = j
  · simp [hj, hne]
  · simp [hj]

/-- A transaction moves on with what it has locked. -/
theorem Lawful.set (h : w.Lawful D C change post) {i : ℕ} {r : ι}
    {t : TransactionState S ε α} (hrun : ∀ body writes, t = .running body writes →
      LockHonors D C (change r) (post r) body writes (w.held i) w.committed)
    (hend : ∀ result, t ≠ .ended result) :
    (w.setTransaction i (some (r, t))).Lawful D C change post where
  inv := h.inv
  running := by
    intro j r' body writes hj
    rw [setTransaction_transactions] at hj
    split at hj
    · next he =>
      cases hj
      rw [he]
      exact hrun body writes rfl
    · exact h.running j r' body writes hj
  ended := by
    intro j r' result hj
    rw [setTransaction_transactions] at hj
    split at hj
    · cases hj
      exact absurd rfl (hend result)
    · exact h.ended j r' result hj
  exclusive := h.exclusive

/-- A transaction ends, possibly with a commit that changes only what it has locked. -/
theorem Lawful.finish (hpost : ∀ r c c' a, C.later c c' → post r c a → post r c' a)
    (h : w.Lawful D C change post) {i : ℕ} {r : ι} {result : Except ε α} {c : σ}
    (hinv : C.inv c) (hlater : C.later w.committed c)
    (hsame : ∀ k, k ∉ w.held i → D.same k w.committed c) (hr : post r c result) :
    ({ w.finish i r result with committed := c } : LockingSession S ε α ι σ κ).Lawful D C change
      post where
  inv := hinv
  running := by
    intro j r' body writes hj
    change (w.setTransaction i _).transactions j = _ at hj
    rw [setTransaction_transactions] at hj
    split at hj
    · cases hj
    · next hne =>
      change LockHonors D C _ _ _ _ ((w.finish i r result).held j) c
      rw [held_finish_of_ne hne]
      apply (h.running j r' body writes hj).meanwhile
      refine ⟨hinv, hlater, fun k hk => hsame k fun hi => hne ?_⟩
      exact h.exclusive j i k (mem_held.mp hk) (mem_held.mp hi)
  ended := by
    intro j r' result' hj
    change (w.setTransaction i _).transactions j = _ at hj
    rw [setTransaction_transactions] at hj
    split at hj
    · cases hj
      exact hr
    · exact hpost r' _ _ _ hlater (h.ended j r' result' hj)
  exclusive := by
    intro a b k ha hb
    have hsub : ∀ l ∈ (w.finish i r result).locked, l ∈ w.locked := 
      fun _ hl => (List.mem_filter.mp hl).1
    exact h.exclusive a b k (hsub _ ha) (hsub _ hb)

variable [DecidableEq κ]

theorem not_blocked {i : ℕ} {keys : List κ} (h : w.blocked i keys = false) {j : ℕ} {k : κ}
    (hj : (j, k) ∈ w.locked) (hk : k ∈ keys) : j = i := by
  by_contra hne
  unfold blocked at h
  rw [List.any_eq_false] at h
  exact h (j, k) hj (by simp [hne, hk])

/-- A statement that did not have to wait. -/
theorem Lawful.lock (h : w.Lawful D C change post) {i : ℕ} {r : ι} {body : Program S ε α}
    {writes : List S.Op} {keys : List κ} (hb : w.blocked i keys = false)
    (hrun : LockHonors D C (change r) (post r) body writes (w.held i ++ keys) w.committed) :
    ({ w.setTransaction i (some (r, .running body writes)) with
      locked := w.locked ++ keys.map (i, ·) } : LockingSession S ε α ι σ κ).Lawful D C change post
    where
  inv := h.inv
  running := by
    intro j r' body' writes' hj
    change (w.setTransaction i _).transactions j = _ at hj
    rw [setTransaction_transactions] at hj
    split at hj
    · next he =>
      cases hj
      have hk := keys_append w.locked keys i j
      rw [if_pos he] at hk
      subst he
      change LockHonors D C _ _ _ _
        (((w.locked ++ keys.map (j, ·)).filter fun l => decide (l.1 = j)).map (·.2)) w.committed
      rw [hk]
      exact hrun
    · next hne =>
      have hk := keys_append w.locked keys i j
      rw [if_neg hne, List.append_nil] at hk
      change LockHonors D C _ _ _ _
        (((w.locked ++ keys.map (i, ·)).filter fun l => decide (l.1 = j)).map (·.2)) w.committed
      rw [hk]
      exact h.running j r' body' writes' hj
  ended := by
    intro j r' result hj
    change (w.setTransaction i _).transactions j = _ at hj
    rw [setTransaction_transactions] at hj
    split at hj
    · cases hj
    · exact h.ended j r' result hj
  exclusive := by
    intro a b k ha hb'
    simp only [List.mem_append, List.mem_map, Prod.mk.injEq] at ha hb'
    rcases ha with ha | ⟨k₁, hk₁, rfl, rfl⟩
    · rcases hb' with hb' | ⟨k₂, hk₂, rfl, rfl⟩
      · exact h.exclusive a b k ha hb'
      · exact not_blocked hb ha hk₂
    · rcases hb' with hb' | ⟨k₂, hk₂, rfl, rfl⟩
      · exact (not_blocked hb hb' hk₁).symm
      · rfl

theorem Lawful.advance (hpost : ∀ r c c' a, C.later c c' → post r c a → post r c' a)
    (herror : ∀ r c e, post r c (.error e)) (h : w.Lawful D C change post) (aborted : ε) (i : ℕ)
    (fault : Option ε) : (w.advance D aborted i fault).Lawful D C change post := by
  have hfinish (r : ι) (e : ε) : (w.finish i r (.error e)).Lawful D C change post :=
    h.finish hpost h.inv (C.later_refl _) (fun k _ => D.same_refl k _) (herror r _ e)
  unfold LockingSession.advance
  cases hi : w.transactions i with
  | none => exact h
  | some rt =>
    obtain ⟨r, t⟩ := rt
    cases t with
    | ended result => exact h
    | failed body =>
      cases body with
      | pure a => exact hfinish r aborted
      | throw e => exact hfinish r e
      | call op next => exact h.set nofun nofun
    | running body writes =>
      have hr := h.running i r body writes hi
      cases body with
      | pure a =>
        cases fault with
        | some e => exact hfinish r e
        | none =>
          obtain ⟨hinv, hlater, hsame, hp, -⟩ := hr _ (h.meanwhile_refl _)
          exact h.finish hpost hinv hlater hsame hp
      | throw e => exact hfinish r e
      | call op next =>
        cases fault with
        | some e => exact h.set nofun nofun
        | none =>
          dsimp only
          unfold LockingSession.perform
          cases hreply : (D.handle op (D.replay writes w.committed)).1 with
          | error e => exact h.set nofun nofun
          | ok a =>
            dsimp only
            split
            · exact h
            · next hb =>
              exact h.lock (by simpa using hb) (hr _ a (h.meanwhile_refl _) hreply)

theorem Lawful.step (hpost : ∀ r c c' a, C.later c c' → post r c a → post r c' a)
    (herror : ∀ r c e, post r c (.error e)) {prog : ι → Program S ε α}
    (hprog : ∀ r c, C.inv c → LockHonors D C (change r) (post r) (prog r) [] [] c)
    (h : w.Lawful D C change post) (aborted : ε) (e : SessionEvent ι ε) :
    (w.step D aborted prog e).Lawful D C change post := by
  cases e with
  | spawn i r =>
    unfold LockingSession.step
    dsimp only
    split
    · exact h
    · refine h.set (fun body writes he => ?_) nofun
      cases he
      exact (hprog r _ h.inv).mono nofun
  | advance i fault => exact h.advance hpost herror aborted i fault
  | restart => exact ⟨h.inv, nofun, nofun, nofun⟩

/-- Transactions that honor a contract keep it in every interleaving. -/
theorem Lawful.run (hpost : ∀ r c c' a, C.later c c' → post r c a → post r c' a)
    (herror : ∀ r c e, post r c (.error e)) {prog : ι → Program S ε α}
    (hprog : ∀ r c, C.inv c → LockHonors D C (change r) (post r) (prog r) [] [] c)
    (h : w.Lawful D C change post) (aborted : ε) (events : List (SessionEvent ι ε)) :
    (w.run D aborted prog events).Lawful D C change post := by
  induction events generalizing w with
  | nil => exact h
  | cons e events ih => exact ih (h.step hpost herror hprog aborted e)

omit [DecidableEq κ] in
theorem lawful_initial {s : σ} (hs : C.inv s) :
    (initial s : LockingSession S ε α ι σ κ).Lawful D C change post :=
  ⟨hs, nofun, nofun, nofun⟩

/-- A step changes the database only in that a transaction ends successfully. -/
theorem Lawful.committed_step (h : w.Lawful D C change post) (aborted : ε)
    (prog : ι → Program S ε α) (e : SessionEvent ι ε) :
    (w.step D aborted prog e).committed = w.committed ∨
      ∃ i fault r t a, e = .advance i fault ∧ w.transactions i = some (r, t) ∧
        change r w.committed (w.step D aborted prog e).committed ∧
        (w.step D aborted prog e).transactions i = some (r, .ended (.ok a)) := by
  cases e with
  | spawn i r =>
    unfold LockingSession.step
    dsimp only
    split <;> exact Or.inl rfl
  | restart => exact Or.inl rfl
  | advance i fault =>
    unfold LockingSession.step LockingSession.advance
    dsimp only
    cases hi : w.transactions i with
    | none => exact Or.inl rfl
    | some rt =>
      obtain ⟨r, t⟩ := rt
      cases t with
      | ended result => exact Or.inl rfl
      | failed body => cases body <;> exact Or.inl rfl
      | running body writes =>
        cases body with
        | pure a =>
          cases fault with
          | some e => exact Or.inl rfl
          | none =>
            obtain ⟨-, -, -, -, hsame | hchange⟩ :=
              h.running i r _ writes hi _ (h.meanwhile_refl _)
            · exact Or.inl hsame
            · exact Or.inr ⟨i, none, r, _, a, rfl, hi, hchange, if_pos rfl⟩
        | throw e => exact Or.inl rfl
        | call op next =>
          left
          cases fault with
          | some e => rfl
          | none =>
            dsimp only
            unfold LockingSession.perform
            split
            · rfl
            · split <;> rfl

end LockingSession

end Contract

end Qualigence.Foundation
