import Qualigence.Migration.LedgerLock
import Qualigence.Protocol.JsonParse

/-! # When the lock of the ledger is exclusive

The file of a live process that holds the lock stays at the lock path as long as every recovery
removes the file that it has examined. A recovery that examined the process id of a file then
removes no file of a live process.
-/

namespace Qualigence.Migration

open Foundation Protocol

/-! ## Process ids in lock files -/

theorem lockPid_empty : lockPid "" = none := by decide

theorem isJsSpace_of_isDigit {c : Char} (h : c.isDigit) : isJsSpace c = false := by
  have hd : 48 ≤ c.toNat ∧ c.toNat ≤ 57 := by
    simpa [Char.isDigit, UInt32.le_iff_toNat_le] using h
  simp only [isJsSpace, decide_eq_false_iff_not, List.mem_cons, List.not_mem_nil, or_false]
  omega

theorem lockPid_lockText {pid : ℕ} (h : 0 < pid) (now : Int) :
    lockPid (lockText pid now) = some pid := by
  have hdigit : ∀ c ∈ Nat.toDigits 10 pid, c.isDigit := fun c hm =>
    Nat.isDigit_of_mem_toDigits (by decide) (by decide) hm
  obtain ⟨c, cs, hcs, hc⟩ := head_toDigits pid
  have htext : (lockText pid now).toList =
      Nat.toDigits 10 pid ++ '\n' :: ((toISOString now).toList ++ ['\n']) := by
    simp only [lockText, String.toList_append]
    rw [show (toString pid).toList = Nat.toDigits 10 pid from Nat.toList_repr]
    simp
  have htoken : ((lockText pid now).toList.dropWhile isJsSpace).takeWhile (fun c => !isJsSpace c) =
      Nat.toDigits 10 pid := by
    have hspace : ∀ c ∈ Nat.toDigits 10 pid, (!isJsSpace c) = true := fun c hm => by
      rw [isJsSpace_of_isDigit (hdigit c hm)]
      rfl
    rw [htext, hcs, List.cons_append, List.dropWhile_cons_of_neg (by
      rw [isJsSpace_of_isDigit hc]
      decide), ← List.cons_append, ← hcs, List.takeWhile_append_of_pos hspace,
      List.takeWhile_cons_of_neg (by decide), List.append_nil]
  have htake : (Nat.toDigits 10 pid).takeWhile Char.isDigit = Nat.toDigits 10 pid := by
    rw [← List.append_nil (Nat.toDigits 10 pid), List.takeWhile_append_of_pos hdigit]
    rfl
  have hparse : parseInt (Nat.toDigits 10 pid) = some pid := by
    have hleading : leadingDigits (Nat.toDigits 10 pid) = Nat.toDigits 10 pid := by
      unfold leadingDigits
      split
      · next rest he =>
        rw [he] at hcs
        cases hcs
        cases hc
      · exact htake
    rw [parseInt, hleading, if_neg Nat.toDigits_ne_nil, Nat.ofDigitChars_ten_toDigits]
  simp only [lockPid, htoken, hparse]
  simp [h]

/-! ## The invariant -/

namespace LockWorld

/-- What the phase of a live process tells about the lock path and about the other processes. -/
def Fits (w : LockWorld) (p : LockProcess) : Prop :=
  match p.phase with
  | .writing inode => ∃ f, w.path = some f ∧ f.inode = inode ∧ f.content = ""
  | .holding inode | .closing inode | .removing inode =>
    ∃ f, w.path = some f ∧ f.inode = inode ∧ lockPid f.content = some p.pid
  | .checking _ pid seen => seen.inode < w.nextInode ∧
    ∀ q ∈ w.processes, q.alive → q.phase.owned = some seen.inode → q.pid = pid
  | .recovering _ inode false => inode < w.nextInode ∧ ¬ w.Owned inode
  | _ => True

structure Inv (w : LockWorld) : Prop where
  path : ∀ f ∈ w.path, f.inode < w.nextInode
  pids : ∀ p ∈ w.processes, 0 < p.pid
  fits : ∀ p ∈ w.processes, p.alive → w.Fits p
  single : ∀ (i j : ℕ) (p q : LockProcess) (n : ℕ), w.processes[i]? = some p →
    w.processes[j]? = some q → p.alive → q.alive → p.phase.owned = some n →
    q.phase.owned = some n → i = j

variable {w w' : LockWorld} {i : ℕ} {p q : LockProcess}

/-- The file of a process is at the lock path. -/
theorem Fits.path {n : ℕ} (h : w.Fits p) (ho : p.phase.owned = some n) :
    ∃ f, w.path = some f ∧ f.inode = n ∧
      (f.content = "" ∨ lockPid f.content = some p.pid) := by
  unfold Fits at h
  unfold LockPhase.owned at ho
  split at ho <;> cases ho
  all_goals
    rename_i hphase
    rw [hphase] at h
    obtain ⟨f, hf, hi, hc⟩ := h
  · exact ⟨f, hf, hi, Or.inl hc⟩
  all_goals exact ⟨f, hf, hi, Or.inr hc⟩

/-- What the phase of a process tells stays true when others move. -/
theorem Fits.later (hn : w.nextInode ≤ w'.nextInode)
    (howners : p.phase.owned = none → ∀ q' ∈ w'.processes, q'.alive → ∀ n,
      q'.phase.owned = some n → n < w.nextInode →
      ∃ q ∈ w.processes, q.alive ∧ q.pid = q'.pid ∧ q.phase.owned = some n)
    (hpath : w'.path = w.path ∨ p.phase.owned = none) (h : w.Fits p) : w'.Fits p := by
  have hsame : p.phase.owned ≠ none → w'.path = w.path := fun hne =>
    hpath.resolve_right hne
  unfold Fits at h ⊢
  split
  · next hphase =>
    rw [hphase] at h hsame
    rw [hsame nofun]
    exact h
  · next hphase =>
    rw [hphase] at h hsame
    rw [hsame nofun]
    exact h
  · next hphase =>
    rw [hphase] at h hsame
    rw [hsame nofun]
    exact h
  · next hphase =>
    rw [hphase] at h hsame
    rw [hsame nofun]
    exact h
  · next pid seen hphase =>
    rw [hphase] at h howners
    refine ⟨h.1.trans_le hn, fun q' hq' ha ho => ?_⟩
    obtain ⟨q, hq, ha', hpid, ho'⟩ := howners rfl q' hq' ha _ ho h.1
    exact hpid.symm.trans (h.2 q hq ha' ho')
  · next inode hphase =>
    rw [hphase] at h howners
    refine ⟨h.1.trans_le hn, ?_⟩
    rintro ⟨q', hq', ha, ho⟩
    obtain ⟨q, hq, ha', -, ho'⟩ := howners rfl q' hq' ha inode ho h.1
    exact h.2 ⟨q, hq, ha', ho'⟩
  · trivial

/-- A live process moves on to a phase that fits the lock path it leaves. -/
theorem Inv.move (hinv : w.Inv) (hp : w.processes[i]? = some p) (ha : p.alive)
    {path : Option LockFile} {nextInode : ℕ} {phase : LockPhase} (hn : w.nextInode ≤ nextInode)
    (hlt : ∀ f ∈ path, f.inode < nextInode)
    (hothers : path = w.path ∨ ∀ (j : ℕ) (q : LockProcess), w.processes[j]? = some q → q.alive →
      j ≠ i → q.phase.owned = none)
    (howned : ∀ n, phase.owned = some n → p.phase.owned = some n ∨ w.nextInode ≤ n)
    (hfits : Fits { w with path, nextInode } { p with phase }) :
    ({ w with path, nextInode }.setPhase i p phase).Inv := by
  have hmem : p ∈ w.processes := List.mem_of_getElem? hp
  have hget : ∀ j q, ({ w with path, nextInode }.setPhase i p phase).processes[j]? = some q →
      j = i ∧ q = { p with phase } ∨ j ≠ i ∧ w.processes[j]? = some q := by
    intro j q hq
    rw [setPhase, List.getElem?_set] at hq
    split at hq
    · next he =>
      split at hq
      · cases hq
        exact Or.inl ⟨he.symm, rfl⟩
      · cases hq
    · next hne => exact Or.inr ⟨fun h => hne h.symm, hq⟩
  -- nobody comes to own a file that was created before
  have howners : ∀ q' ∈ ({ w with path, nextInode }.setPhase i p phase).processes, q'.alive →
      ∀ n, q'.phase.owned = some n → n < w.nextInode →
      ∃ q ∈ w.processes, q.alive ∧ q.pid = q'.pid ∧ q.phase.owned = some n := by
    intro q' hq' ha' n ho hn'
    obtain ⟨j, hj⟩ := List.mem_iff_getElem?.mp hq'
    rcases hget j q' hj with ⟨-, rfl⟩ | ⟨-, hj⟩
    · rcases howned n ho with ho | hle
      · exact ⟨p, hmem, ha, rfl, ho⟩
      · omega
    · exact ⟨q', List.mem_of_getElem? hj, ha', rfl, ho⟩
  have hbelow : ∀ (j : ℕ) (q : LockProcess) (n : ℕ), w.processes[j]? = some q → q.alive →
      q.phase.owned = some n → n < w.nextInode := by
    intro j q n hq haq ho
    obtain ⟨f, hf, rfl, -⟩ := (hinv.fits q (List.mem_of_getElem? hq) haq).path ho
    exact hinv.path f hf
  refine ⟨hlt, fun q hq => ?_, fun q hq haq => ?_, fun j k q r n hq hr haq har hoq hor => ?_⟩
  · obtain ⟨j, hj⟩ := List.mem_iff_getElem?.mp hq
    rcases hget j q hj with ⟨-, rfl⟩ | ⟨-, hj⟩
    · exact hinv.pids p hmem
    · exact hinv.pids q (List.mem_of_getElem? hj)
  · obtain ⟨j, hj⟩ := List.mem_iff_getElem?.mp hq
    rcases hget j q hj with ⟨-, rfl⟩ | ⟨hne, hj⟩
    · refine Fits.later (p := { p with phase }) ?_ (fun hnone q' hq' ha' n ho hn' => ?_)
        (Or.inl ?_) hfits
      · exact le_rfl
      swap
      · rfl
      obtain ⟨k, hk⟩ := List.mem_iff_getElem?.mp hq'
      rcases hget k q' hk with ⟨-, rfl⟩ | ⟨-, hk⟩
      · cases hnone.symm.trans ho
      · exact ⟨q', List.mem_of_getElem? hk, ha', rfl, ho⟩
    · refine (hinv.fits q (List.mem_of_getElem? hj) haq).later hn (fun _ => howners) ?_
      rcases hothers with he | hno
      · exact Or.inl he
      · exact Or.inr (hno j q hj haq hne)
  · rcases hget j q hq with ⟨hji, rfl⟩ | ⟨-, hjq⟩
    · rcases hget k r hr with ⟨hki, rfl⟩ | ⟨-, hkr⟩
      · exact hji.trans hki.symm
      · rcases howned n hoq with ho | hle
        · exact hji.trans (hinv.single i k p r n hp hkr ha har ho hor)
        · have := hbelow k r n hkr har hor
          omega
    · rcases hget k r hr with ⟨hki, rfl⟩ | ⟨-, hkr⟩
      · rcases howned n hor with ho | hle
        · exact (hinv.single j i q p n hjq hp haq ha hoq ho).trans hki.symm
        · have := hbelow j q n hjq haq hoq
          omega
      · exact hinv.single j k q r n hjq hkr haq har hoq hor

/-- A process moves on and leaves the lock path as it is. -/
theorem Inv.rest (hinv : w.Inv) (hp : w.processes[i]? = some p) (ha : p.alive)
    {phase : LockPhase} (hnone : phase.owned = none) (hfits : w.Fits { p with phase }) :
    (w.setPhase i p phase).Inv :=
  hinv.move hp ha le_rfl hinv.path (Or.inl rfl)
    (fun _ ho => nomatch hnone.symm.trans ho) hfits

/-- Beside the process whose file is at the lock path, no live process owns a file. -/
theorem Inv.others (hinv : w.Inv) (hp : w.processes[i]? = some p) (ha : p.alive) {n : ℕ}
    (ho : p.phase.owned = some n) (j : ℕ) (q : LockProcess) (hq : w.processes[j]? = some q)
    (haq : q.alive) (hne : j ≠ i) : q.phase.owned = none := by
  cases hoq : q.phase.owned with
  | none => rfl
  | some m =>
    obtain ⟨f, hf, hfn, -⟩ := (hinv.fits p (List.mem_of_getElem? hp) ha).path ho
    obtain ⟨g, hg, hgm, -⟩ := (hinv.fits q (List.mem_of_getElem? hq) haq).path hoq
    cases hf.symm.trans hg
    exact absurd (hinv.single j i q p n hq hp haq ha (hoq.trans (hgm ▸ hfn ▸ rfl)) ho) hne

/-- Nobody owns a file while there is none. -/
theorem Inv.none_owned (hinv : w.Inv) (hpath : w.path = none) (j : ℕ) (q : LockProcess)
    (hq : w.processes[j]? = some q) (haq : q.alive) : q.phase.owned = none := by
  cases hoq : q.phase.owned with
  | none => rfl
  | some m =>
    obtain ⟨g, hg, -⟩ := (hinv.fits q (List.mem_of_getElem? hq) haq).path hoq
    cases hpath.symm.trans hg

theorem inv_perform (hinv : w.Inv) (hp : w.processes[i]? = some p) (ha : p.alive)
    (foreign : Bool) (hcare : w.CarefulRecovery (some p)) : (w.perform i p foreign).Inv := by
  have hmem := List.mem_of_getElem? hp
  have hfits := hinv.fits p hmem ha
  obtain ⟨pid, alive, phase⟩ := p
  obtain rfl : alive = true := ha
  cases phase with
  | idle => exact hinv
  | holding inode => exact hinv
  | opening started =>
    simp only [perform]
    cases hpath : w.path with
    | some f => exact hinv.rest hp rfl rfl trivial
    | none =>
      refine hinv.move hp rfl (Nat.le_succ _) ?_ (Or.inr fun j q hq haq _ =>
        hinv.none_owned hpath j q hq haq) ?_ ⟨_, rfl, rfl, rfl⟩
      · rintro f ⟨⟩
        exact Nat.lt_succ_self _
      · rintro n ⟨⟩
        exact Or.inr le_rfl
  | writing inode =>
    obtain ⟨f, hf, rfl, -⟩ := hfits
    have hwrite : ∀ content, (w.write f.inode content).path =
        some { f with content, modifiedAt := w.now } := by
      intro content
      simp [write, hf]
    refine hinv.move hp rfl le_rfl ?_ (Or.inr (hinv.others hp rfl rfl)) ?_ ?_
    · intro g hg
      cases (hwrite _).symm.trans hg
      exact hinv.path f hf
    · rintro n ⟨⟩
      exact Or.inl rfl
    · exact ⟨_, hwrite _, rfl, lockPid_lockText (hinv.pids _ hmem) w.now⟩
  | closing inode =>
    refine hinv.move hp rfl le_rfl hinv.path (Or.inl rfl) ?_ hfits
    rintro n ⟨⟩
    exact Or.inl rfl
  | removing inode =>
    exact hinv.move hp rfl le_rfl nofun (Or.inr (hinv.others hp rfl rfl)) nofun trivial
  | reading started =>
    simp only [perform]
    cases hpath : w.path with
    | none => exact hinv.rest hp rfl rfl trivial
    | some f =>
      dsimp only
      cases hpid : lockPid f.content with
      | none => exact hinv.rest hp rfl rfl trivial
      | some n =>
        refine hinv.rest hp rfl rfl ⟨hinv.path f hpath, fun q hq haq ho => ?_⟩
        -- the file that was read is the one of its owner, with the process id of the owner
        obtain ⟨g, hg, -, hc⟩ := (hinv.fits q hq haq).path ho
        cases hpath.symm.trans hg
        rcases hc with hc | hc
        · rw [hc, lockPid_empty] at hpid
          cases hpid
        · exact Option.some.inj (hc.symm.trans hpid)
  | checking started n seen =>
    simp only [perform]
    split
    · exact hinv.rest hp rfl rfl trivial
    · next hdead =>
      refine hinv.rest hp rfl rfl ⟨hfits.1, ?_⟩
      rintro ⟨q, hq, haq, ho⟩
      exact hdead (Or.inr (Or.inl ⟨q, hq, haq, hfits.2 q hq haq ho⟩))
  | stating started =>
    simp only [perform]
    cases hpath : w.path with
    | none => exact hinv.rest hp rfl rfl trivial
    | some f =>
      dsimp only
      split
      · exact hinv.rest hp rfl rfl trivial
      · exact hinv.rest hp rfl rfl trivial
  | recovering started inode byAge =>
    refine hinv.move hp rfl le_rfl nofun (Or.inr fun j q hq haq _ => ?_) nofun trivial
    -- the file that is removed belongs to nobody
    cases hoq : q.phase.owned with
    | none => rfl
    | some m =>
      obtain ⟨f, hf, rfl, -⟩ := (hinv.fits q (List.mem_of_getElem? hq) haq).path hoq
      obtain ⟨hi, hage⟩ := hcare f hf
      have howned : w.Owned inode := ⟨q, List.mem_of_getElem? hq, haq, hoq.trans (hi ▸ rfl)⟩
      cases byAge with
      | true => exact absurd howned (hage rfl)
      | false => exact absurd howned hfits.2
  | waiting started =>
    simp only [perform]
    split
    · exact hinv.rest hp rfl rfl trivial
    · exact hinv.rest hp rfl rfl trivial

theorem inv_performFailing (hinv : w.Inv) (hp : w.processes[i]? = some p) (ha : p.alive)
    (written : ℕ) : (w.performFailing i p written).Inv := by
  have hidle : (w.setPhase i p .idle).Inv := hinv.rest hp ha rfl trivial
  unfold performFailing
  split
  · exact hinv
  · next inode hphase =>
    have ho : p.phase.owned = some inode := by rw [hphase]; rfl
    refine hinv.move hp ha le_rfl ?_ (Or.inr (hinv.others hp ha ho)) nofun trivial
    intro f hf
    obtain ⟨g, hg, rfl⟩ := Option.map_eq_some_iff.mp hf
    have := hinv.path g hg
    split <;> exact this
  · exact hidle

/-- Processes stop, or new ones start that do nothing yet. -/
theorem Inv.change (hinv : w.Inv) {processes : List LockProcess}
    (hsub : ∀ (j : ℕ) (q : LockProcess), processes[j]? = some q → q.alive →
      w.processes[j]? = some q ∨ q.phase = .idle)
    (hpids : ∀ q ∈ processes, 0 < q.pid) : { w with processes }.Inv := by
  have hold : ∀ (j : ℕ) (q : LockProcess) (n : ℕ), processes[j]? = some q → q.alive →
      q.phase.owned = some n → w.processes[j]? = some q := by
    intro j q n hq ha ho
    rcases hsub j q hq ha with h | h
    · exact h
    · rw [h] at ho
      cases ho
  refine ⟨hinv.path, hpids, fun q hq ha => ?_, fun j k q r n hq hr haq har hoq hor =>
    hinv.single j k q r n (hold j q n hq haq hoq) (hold k r n hr har hor) haq har hoq hor⟩
  obtain ⟨j, hj⟩ := List.mem_iff_getElem?.mp hq
  rcases hsub j q hj ha with h | h
  · refine Fits.later ?_ (fun _ q' hq' ha' n ho _ => ?_) (Or.inl ?_)
      (hinv.fits q (List.mem_of_getElem? h) ha)
    · exact le_rfl
    · obtain ⟨k, hk⟩ := List.mem_iff_getElem?.mp hq'
      exact ⟨q', List.mem_of_getElem? (hold k q' n hk ha' ho), ha', rfl, ho⟩
    · rfl
  · unfold Fits
    rw [h]
    trivial

theorem inv_step (hinv : w.Inv) (e : LockEvent) (hcare : w.Careful e) : (w.step e).Inv := by
  cases e with
  | start pid =>
    simp only [step]
    split
    · exact hinv
    · next hpid =>
      refine hinv.change (fun j q hq _ => ?_) fun q hq => ?_
      · rw [List.getElem?_append] at hq
        split at hq
        · exact Or.inl hq
        · rw [List.mem_singleton.mp (List.mem_of_getElem? hq)]
          exact Or.inr rfl
      · rcases List.mem_append.mp hq with hq | hq
        · exact hinv.pids q hq
        · rw [List.mem_singleton.mp hq]
          exact Nat.pos_of_ne_zero fun h => hpid (Or.inl h)
  | crash i =>
    simp only [step]
    cases hp : w.processes[i]? with
    | none => exact hinv
    | some p =>
      refine hinv.change (fun j q hq ha => ?_) fun q hq => ?_
      · rw [List.getElem?_set] at hq
        split at hq
        · split at hq
          · cases hq
            cases ha
          · cases hq
        · exact Or.inl hq
      · rcases List.mem_or_eq_of_mem_set hq with hq | rfl
        · exact hinv.pids q hq
        · exact hinv.pids p (List.mem_of_getElem? hp)
  | clock now => exact ⟨hinv.path, hinv.pids, hinv.fits, hinv.single⟩
  | acquire i =>
    simp only [step]
    split
    · next pid hp => exact hinv.rest hp rfl rfl trivial
    · exact hinv
  | release i =>
    simp only [step]
    split
    · next pid inode hp =>
      have hfits := hinv.fits _ (List.mem_of_getElem? hp) rfl
      refine hinv.move hp rfl le_rfl hinv.path (Or.inl rfl) ?_ hfits
      rintro n ⟨⟩
      exact Or.inl rfl
    · exact hinv
  | step i foreign =>
    simp only [step]
    split
    · next p hp =>
      split
      · next ha => exact inv_perform hinv hp ha foreign (hp ▸ hcare)
      · exact hinv
    · exact hinv
  | fail i written =>
    simp only [step]
    split
    · next p hp =>
      split
      · next ha => exact inv_performFailing hinv hp ha written
      · exact hinv
    · exact hinv

theorem inv_initial : initial.Inv :=
  ⟨nofun, nofun, nofun, fun _ _ _ _ _ h => nomatch h⟩

theorem Inv.exclusive (hinv : w.Inv) : w.Exclusive := by
  have howned : ∀ phase : LockPhase, phase.holds → ∃ n, phase.owned = some n := by
    intro phase h
    cases phase <;> first | exact ⟨_, rfl⟩ | cases h
  intro i j p q hp hq hap haq hhp hhq
  obtain ⟨n, hn⟩ := howned p.phase hhp
  by_contra hne
  obtain ⟨m, hm⟩ := howned q.phase hhq
  cases (hinv.others hp hap hn j q hq haq fun h => hne h.symm).symm.trans hm

/-- The lock is exclusive in every run in which every recovery removes the file that it examined,
and removes no file for its age that a live process has just created. -/
theorem lock_exclusive (events : List LockEvent)
    (hcare : Meets step Careful initial events) : (run events).Exclusive :=
  (hcare.foldl (fun _ e he hinv => inv_step hinv e he) inv_initial).exclusive

/-- A process takes the lock and crashes. -/
def leftBehind : List LockEvent :=
  [.start 101, .start 102, .start 103, .acquire 0, .step 0 false, .step 0 false, .crash 0]

/-- The next process finds the lock file, removes it and takes the lock. -/
def recovered : List LockEvent :=
  leftBehind ++ ([.acquire 1, .step 1 false, .step 1 false, .step 1 false, .step 1 false,
    .step 1 false, .step 1 false] : List LockEvent)

theorem recovered_exclusive :
    (run recovered).Exclusive ∧
      (run recovered).processes[1]? = some ⟨102, true, .holding 1⟩ :=
  ⟨lock_exclusive recovered (by decide), by decide⟩

/-- Two processes examine the file of a crashed one before either of them removes it. -/
def recoveredTwice : List LockEvent :=
  leftBehind ++ ([.acquire 1, .step 1 false, .step 1 false, .acquire 2, .step 2 false,
    .step 2 false, .step 1 false, .step 2 false, .step 1 false, .step 1 false, .step 1 false,
    .step 2 false, .step 2 false, .step 2 false] : List LockEvent)

theorem lock_held_twice : ¬ ∀ events : List LockEvent, (run events).Exclusive := by
  intro h
  have hp : (run recoveredTwice).processes[1]? = some ⟨102, true, .holding 1⟩ := by
    decide
  have hq : (run recoveredTwice).processes[2]? = some ⟨103, true, .holding 2⟩ := by
    decide
  have heq : 1 = 2 := h recoveredTwice 1 2 _ _ hp hq rfl rfl rfl rfl
  cases heq

end LockWorld

end Qualigence.Migration
