import Mathlib.Logic.Function.Iterate
import Qualigence.Core.LiveSessions
import Qualigence.Core.Offers

/-! # Chains of resume credentials

An issued credential starts a chain, and every rotation derives the next credential of its
chain from the presented one. A chain has one credential at most that is not consumed, and
presenting a rotated credential again leads to the same replacement. The rows of the token
table are never deleted and keep what they are bound to.
-/

namespace Qualigence.Core

open Foundation Protocol Lease

section Chains

variable {τ : Type} (o : CoreOptions)

/-- The credentials that are derived from an issued one, by the number of rotations. -/
def credential (issued : String) (rotations : ℕ) : String :=
  (RunnerResumeTokenService.deriveReplacementToken o)^[rotations] issued

/-- A row of the token table stands for a credential of a chain. -/
def InChain (issued : String) (row : TokenRow τ) : Prop :=
  ∃ rotations, row.tokenHash = RunnerResumeTokenService.hashToken o (credential o issued rotations)

/-- Digests do not collide. -/
structure DigestsInjective (P : Platform) : Prop where
  hex : Function.Injective P.sha256Hex
  base64url : Function.Injective P.sha256Base64url

/-- A generated text is no other generated text and is not derived from one. -/
def FreshTokens (generate : ℕ → String) : Prop :=
  ∀ i j rotations, credential o (generate i) rotations = generate j → i = j

/-- Every row lies in the chain of a generated text, and the rows of a chain have one binding
and at most one of them is not consumed. -/
structure Linear (generate : ℕ → String) (drawn : ℕ) (tokens : Table (TokenRow τ) TokenRow.key) :
    Prop where
  rooted : ∀ r ∈ tokens.rows, ∃ i < drawn, InChain o (generate i) r
  bound : ∀ i, ∀ r ∈ tokens.rows, ∀ r' ∈ tokens.rows, r.scope = r'.scope →
    InChain o (generate i) r → InChain o (generate i) r' → r.binding = r'.binding
  single : ∀ i, ∀ r ∈ tokens.rows, ∀ r' ∈ tokens.rows, r.scope = r'.scope →
    InChain o (generate i) r → InChain o (generate i) r' → r.consumedAt = none →
    r'.consumedAt = none → r = r'

variable {o} {generate : ℕ → String} {drawn : ℕ}
  {tokens tokens' : Table (TokenRow τ) TokenRow.key}

theorem hashToken_injective (hd : DigestsInjective o.platform) :
    Function.Injective (RunnerResumeTokenService.hashToken o) :=
  hd.hex.comp utf8Bytes_injective

theorem deriveReplacementToken_injective (hd : DigestsInjective o.platform) :
    Function.Injective (RunnerResumeTokenService.deriveReplacementToken o) := by
  intro s t h
  have he := utf8Bytes_injective (hd.base64url h)
  have hl := congrArg String.toList he
  rw [String.toList_append, String.toList_append] at hl
  exact String.toList_inj.mp (List.append_cancel_left hl)

theorem credential_succ (issued : String) (rotations : ℕ) :
    credential o issued (rotations + 1) =
      RunnerResumeTokenService.deriveReplacementToken o (credential o issued rotations) :=
  Function.iterate_succ_apply' _ _ _

/-- Chains of different generated texts have no credential in common. -/
theorem eq_of_credential_eq (hd : DigestsInjective o.platform) (hf : FreshTokens o generate)
    {i j a b : ℕ} (h : credential o (generate i) a = credential o (generate j) b) : i = j := by
  rcases Nat.le_total a b with hab | hab
  · obtain ⟨k, rfl⟩ := Nat.exists_eq_add_of_le hab
    unfold credential at h
    rw [Function.iterate_add_apply] at h
    have hc := (deriveReplacementToken_injective hd).iterate a h
    exact (hf j i k hc.symm).symm
  · obtain ⟨k, rfl⟩ := Nat.exists_eq_add_of_le hab
    unfold credential at h
    rw [Function.iterate_add_apply] at h
    exact hf i j k ((deriveReplacementToken_injective hd).iterate b h)

/-- A row lies in one chain only. -/
theorem InChain.unique (hd : DigestsInjective o.platform) (hf : FreshTokens o generate)
    {i j : ℕ} {r r' : TokenRow τ} (hr : InChain o (generate i) r)
    (hr' : InChain o (generate j) r') (he : r.tokenHash = r'.tokenHash) : i = j := by
  obtain ⟨a, ha⟩ := hr
  obtain ⟨b, hb⟩ := hr'
  rw [ha, hb] at he
  exact eq_of_credential_eq hd hf (hashToken_injective hd he)

/-- The replacement of a credential lies in its chain, and in no other. -/
theorem inChain_replacement (hd : DigestsInjective o.platform) (hf : FreshTokens o generate)
    {i j : ℕ} {token : String} {r r' : TokenRow τ}
    (hr : r.tokenHash = RunnerResumeTokenService.hashToken o token)
    (hr' : r'.tokenHash = RunnerResumeTokenService.hashToken o
      (RunnerResumeTokenService.deriveReplacementToken o token))
    (hi : InChain o (generate i) r) :
    InChain o (generate j) r' ↔ i = j := by
  obtain ⟨a, ha⟩ := hi
  have ht : token = credential o (generate i) a := hashToken_injective hd (hr.symm.trans ha)
  have hi' : InChain o (generate i) r' := by
    refine ⟨a + 1, ?_⟩
    rw [hr', ht, credential_succ]
  constructor
  · intro hj
    exact hi'.unique hd hf hj rfl
  · rintro rfl
    exact hi'

/-! ## The token table -/

/-- A table whose rows are rows of another with the same bindings, some of them consumed. -/
def ConsumedOf (tokens tokens' : Table (TokenRow τ) TokenRow.key) : Prop :=
  ∀ r' ∈ tokens'.rows, ∃ r ∈ tokens.rows, r.key = r'.key ∧ r.binding = r'.binding ∧
    (r'.consumedAt = none → r.consumedAt = none)

theorem Linear.consume (hl : Linear o generate drawn tokens) (hc : ConsumedOf tokens tokens') :
    Linear o generate drawn tokens' := by
  have hin : ∀ {issued : String} {r r' : TokenRow τ}, r.key = r'.key →
      (InChain o issued r ↔ InChain o issued r') := by
    intro issued r r' hk
    unfold InChain
    rw [show r.tokenHash = r'.tokenHash from congrArg Prod.snd hk]
  constructor
  · intro r' hr'
    obtain ⟨r, hr, hk, _⟩ := hc r' hr'
    obtain ⟨i, hi, hchain⟩ := hl.rooted r hr
    exact ⟨i, hi, (hin hk).mp hchain⟩
  · intro i r' hr' s' hs' hsc hc1 hc2
    obtain ⟨r, hr, hkr, hbr, _⟩ := hc r' hr'
    obtain ⟨s, hs, hks, hbs, _⟩ := hc s' hs'
    rw [← hbr, ← hbs]
    refine hl.bound i r hr s hs ?_ ((hin hkr).mpr hc1) ((hin hks).mpr hc2)
    exact (congrArg Prod.fst hkr).trans (hsc.trans (congrArg Prod.fst hks).symm)
  · intro i r' hr' s' hs' hsc hc1 hc2 hu1 hu2
    obtain ⟨r, hr, hkr, _, hur⟩ := hc r' hr'
    obtain ⟨s, hs, hks, _, hus⟩ := hc s' hs'
    have hsc' : r.scope = s.scope :=
      (congrArg Prod.fst hkr).trans (hsc.trans (congrArg Prod.fst hks).symm)
    have he := hl.single i r hr s hs hsc' ((hin hkr).mpr hc1) ((hin hks).mpr hc2)
      (hur hu1) (hus hu2)
    have hk : r'.key = s'.key := by rw [← hkr, ← hks, he]
    exact List.inj_on_of_nodup_map tokens'.nodup hr' hs' hk

section Keys

variable [DecidableEq τ] {scope : τ} {row : TokenRow τ}

theorem consumedOf_consumeToken (scope : τ) (tokenHash : String) (p : TokenRow τ → Bool)
    (t : Timestamp) :
    ConsumedOf tokens (RunnerControlStore.consumeToken scope tokenHash p t tokens) := by
  intro r' hr'
  obtain ⟨r, hr, rfl⟩ := List.mem_map.mp hr'
  refine ⟨r, hr, ?_⟩
  split
  · exact ⟨rfl, rfl, nofun⟩
  · exact ⟨rfl, rfl, id⟩

/-- A credential of a chain that no row belongs to can be issued. -/
theorem Linear.issue (hl : Linear o generate drawn tokens) (hd : DigestsInjective o.platform)
    (hf : FreshTokens o generate) (hi : tokens.insert row = some tokens')
    (hh : row.tokenHash = RunnerResumeTokenService.hashToken o (generate drawn)) :
    Linear o generate (drawn + 1) tokens' := by
  have hroot : InChain o (generate drawn) row := ⟨0, hh⟩
  -- no row that is there lies in the chain of the new one
  have hnew : ∀ i, ∀ r ∈ tokens.rows, InChain o (generate i) r → InChain o (generate i) row →
      False := by
    intro i r hr hc hc'
    obtain ⟨j, hj, hcj⟩ := hl.rooted r hr
    have h1 := hcj.unique hd hf hc rfl
    have h2 := hroot.unique hd hf hc' rfl
    omega
  have hmem : ∀ r ∈ tokens'.rows, r ∈ tokens.rows ∨ r = row := by
    intro r hr
    rw [Table.rows_of_insert hi, List.mem_append, List.mem_singleton] at hr
    exact hr
  constructor
  · intro r hr
    rcases hmem r hr with hr | rfl
    · obtain ⟨i, hlt, hc⟩ := hl.rooted r hr
      exact ⟨i, by omega, hc⟩
    · exact ⟨drawn, by omega, hroot⟩
  · intro i r hr s hs hsc hc1 hc2
    rcases hmem r hr with hr | rfl <;> rcases hmem s hs with hs | rfl
    · exact hl.bound i r hr s hs hsc hc1 hc2
    · exact (hnew i r hr hc1 hc2).elim
    · exact (hnew i s hs hc2 hc1).elim
    · rfl
  · intro i r hr s hs hsc hc1 hc2 hu1 hu2
    rcases hmem r hr with hr | rfl <;> rcases hmem s hs with hs | rfl
    · exact hl.single i r hr s hs hsc hc1 hc2 hu1 hu2
    · exact (hnew i r hr hc1 hc2).elim
    · exact (hnew i s hs hc2 hc1).elim
    · rfl

/-- A chain whose credentials are all consumed can be extended by a replacement. -/
theorem Linear.extend (hl : Linear o generate drawn tokens) (hd : DigestsInjective o.platform)
    (hf : FreshTokens o generate) {replacement : TokenRow τ} {token : String}
    (hi : tokens.insert replacement = some tokens') (hrow : row ∈ tokens.rows)
    (hh : row.tokenHash = RunnerResumeTokenService.hashToken o token)
    (hh' : replacement.tokenHash = RunnerResumeTokenService.hashToken o
      (RunnerResumeTokenService.deriveReplacementToken o token))
    (hscope : row.scope = replacement.scope) (hbind : row.binding = replacement.binding)
    (hnone : ∀ i, ∀ r ∈ tokens.rows, row.scope = r.scope → InChain o (generate i) row →
      InChain o (generate i) r → r.consumedAt ≠ none) :
    Linear o generate drawn tokens' := by
  have hchain : ∀ j, InChain o (generate j) replacement → InChain o (generate j) row := by
    intro j hj
    obtain ⟨i, _, hc⟩ := hl.rooted row hrow
    rw [← (inChain_replacement hd hf hh hh' hc).mp hj]
    exact hc
  have hmem : ∀ r ∈ tokens'.rows, r ∈ tokens.rows ∨ r = replacement := by
    intro r hr
    rw [Table.rows_of_insert hi, List.mem_append, List.mem_singleton] at hr
    exact hr
  constructor
  · intro r hr
    rcases hmem r hr with hr | rfl
    · exact hl.rooted r hr
    · obtain ⟨i, hlt, hc⟩ := hl.rooted row hrow
      exact ⟨i, hlt, (inChain_replacement hd hf hh hh' hc).mpr rfl⟩
  · intro i r hr s hs hsc hc1 hc2
    rcases hmem r hr with hr | rfl <;> rcases hmem s hs with hs | rfl
    · exact hl.bound i r hr s hs hsc hc1 hc2
    · rw [← hbind]
      exact hl.bound i r hr row hrow (hsc.trans hscope.symm) hc1 (hchain i hc2)
    · rw [← hbind]
      exact hl.bound i row hrow s hs (hscope.trans hsc) (hchain i hc1) hc2
    · rfl
  · intro i r hr s hs hsc hc1 hc2 hu1 hu2
    rcases hmem r hr with hr | rfl <;> rcases hmem s hs with hs | rfl
    · exact hl.single i r hr s hs hsc hc1 hc2 hu1 hu2
    · exact absurd hu1 (hnone i r hr (hscope.trans hsc.symm) (hchain i hc2) hc1)
    · exact absurd hu2 (hnone i s hs (hscope.trans hsc) (hchain i hc1) hc2)
    · rfl

/-- Consuming a credential and storing its replacement keeps its chain linear. -/
theorem Linear.rotate (hl : Linear o generate drawn tokens) (hd : DigestsInjective o.platform)
    (hf : FreshTokens o generate) {replacement : TokenRow τ} {token : String} {t : Timestamp}
    (hrow : tokens.get (scope, RunnerResumeTokenService.hashToken o token) = some row)
    (hu : row.consumedAt = none) (hscope : replacement.scope = scope)
    (hbind : row.binding = replacement.binding)
    (hh : replacement.tokenHash = RunnerResumeTokenService.hashToken o
      (RunnerResumeTokenService.deriveReplacementToken o token)) :
    Linear o generate drawn (RunnerControlStore.consumeToken scope
      (RunnerResumeTokenService.hashToken o token) (fun r => r.consumedAt.isNone) t
      ((tokens.insert replacement).getD tokens)) := by
  obtain ⟨hmem, hkey⟩ := Table.get_eq_some_iff.mp hrow
  have hs : row.scope = scope := congrArg Prod.fst hkey
  have hr : row.tokenHash = RunnerResumeTokenService.hashToken o token := congrArg Prod.snd hkey
  have hl' := hl.consume (consumedOf_consumeToken scope
    (RunnerResumeTokenService.hashToken o token) (fun r => r.consumedAt.isNone) t)
  cases hi : tokens.insert replacement with
  | none => exact hl'
  | some inserted =>
    have hne : replacement.key ≠ (scope, RunnerResumeTokenService.hashToken o token) := by
      intro he
      have hnone := Table.get_eq_none_of_insert hi
      rw [he, hrow] at hnone
      cases hnone
    -- consuming first and inserting then gives the same rows
    obtain ⟨extended, he⟩ : ∃ extended, (RunnerControlStore.consumeToken scope
        (RunnerResumeTokenService.hashToken o token) (fun r => r.consumedAt.isNone) t
        tokens).insert replacement = some extended := by
      rw [← Option.ne_none_iff_exists', ne_eq, Table.insert_eq_none_iff]
      unfold RunnerControlStore.consumeToken
      rw [Table.get_update, Table.get_eq_none_of_insert hi]
      exact Bool.false_ne_true
    have hrows : (RunnerControlStore.consumeToken scope
        (RunnerResumeTokenService.hashToken o token) (fun r => r.consumedAt.isNone) t
        inserted).rows = extended.rows := by
      rw [Table.rows_of_insert he]
      unfold RunnerControlStore.consumeToken Table.update
      dsimp only
      rw [Table.rows_of_insert hi, List.map_append, List.map_singleton, if_neg (by simp [hne])]
    have hrow' : row.setConsumedAt t ∈ (RunnerControlStore.consumeToken scope
        (RunnerResumeTokenService.hashToken o token) (fun r => r.consumedAt.isNone) t
        tokens).rows := by
      refine List.mem_map.mpr ⟨row, hmem, ?_⟩
      rw [if_pos (by simp [hkey, hu])]
    have hext := hl'.extend hd hf he hrow' hr hh (hs.trans hscope.symm) hbind ?_
    · exact ⟨hrows ▸ hext.rooted, hrows ▸ hext.bound, hrows ▸ hext.single⟩
    · intro i r' hr' hsc hc1 hc2 hun
      obtain ⟨r, hr0, rfl⟩ := List.mem_map.mp hr'
      split at hun
      · cases hun
      · next hp =>
        rw [if_neg hp] at hsc hc2
        have heq := hl.single i row hmem r hr0 hsc hc1 hc2 hu hun
        subst heq
        exact hp (by simp [hkey, hu])

omit [DecidableEq τ] in
theorem Linear.mono {drawn' : ℕ} (hl : Linear o generate drawn tokens) (h : drawn ≤ drawn') :
    Linear o generate drawn' tokens := by
  refine ⟨fun r hr => ?_, hl.bound, hl.single⟩
  obtain ⟨i, hi, hc⟩ := hl.rooted r hr
  exact ⟨i, by omega, hc⟩

/-! ## Rows are kept -/

/-- Every row is kept with its binding and expiry, and stays consumed. -/
def KeepsTokens (tokens tokens' : Table (TokenRow τ) TokenRow.key) : Prop :=
  ∀ k row, tokens.get k = some row → ∃ row', tokens'.get k = some row' ∧
    row'.binding = row.binding ∧ row'.expiresAt = row.expiresAt ∧
    (row.consumedAt.isSome → row'.consumedAt.isSome)

theorem KeepsTokens.refl (tokens : Table (TokenRow τ) TokenRow.key) :
    KeepsTokens tokens tokens :=
  fun _ row h => ⟨row, h, rfl, rfl, id⟩

theorem KeepsTokens.trans {tokens'' : Table (TokenRow τ) TokenRow.key}
    (h : KeepsTokens tokens tokens') (h' : KeepsTokens tokens' tokens'') :
    KeepsTokens tokens tokens'' := by
  intro k row hk
  obtain ⟨row', hk', hb, he, hc⟩ := h k row hk
  obtain ⟨row'', hk'', hb', he', hc'⟩ := h' k row' hk'
  exact ⟨row'', hk'', hb'.trans hb, he'.trans he, fun hs => hc' (hc hs)⟩

/-- `ON CONFLICT DO NOTHING` leaves a row under the key of the new one. -/
theorem isSome_getD_insert (row : TokenRow τ) :
    (((tokens.insert row).getD tokens).get row.key).isSome := by
  cases hi : tokens.insert row with
  | none => exact Table.insert_eq_none_iff.mp hi
  | some tokens' =>
    rw [Option.getD_some, Table.get_of_insert hi, if_pos rfl]
    rfl

theorem get_getD_insert {k : τ × String} {row' : TokenRow τ} (hk : tokens.get k = some row') :
    ((tokens.insert row).getD tokens).get k = some row' := by
  cases hi : tokens.insert row with
  | none => exact hk
  | some tokens' => exact Table.get_of_insert_of_get hi hk

theorem keepsTokens_consumeToken (tokenHash : String) (p : TokenRow τ → Bool) (t : Timestamp) :
    KeepsTokens tokens (RunnerControlStore.consumeToken scope tokenHash p t tokens) := by
  intro k row hk
  unfold RunnerControlStore.consumeToken
  rw [Table.get_update, hk, Option.map_some]
  split
  · exact ⟨_, rfl, rfl, rfl, fun _ => rfl⟩
  · exact ⟨_, rfl, rfl, rfl, id⟩

/-- The row of the presented credential is consumed and the replacement is stored. -/
def Rotated (scope : τ) (tokenHash replacementTokenHash : String) (binding : ResumeTokenBinding)
    (tokens : Table (TokenRow τ) TokenRow.key) : Prop :=
  ∃ row, tokens.get (scope, tokenHash) = some row ∧ row.binding = binding ∧
    row.consumedAt.isSome ∧ (tokens.get (scope, replacementTokenHash)).isSome

theorem Rotated.keeps {tokenHash replacementTokenHash : String} {binding : ResumeTokenBinding}
    (h : Rotated scope tokenHash replacementTokenHash binding tokens)
    (hk : KeepsTokens tokens tokens') :
    Rotated scope tokenHash replacementTokenHash binding tokens' := by
  obtain ⟨row, hrow, hb, hc, hr⟩ := h
  obtain ⟨row', hrow', hb', _, hc'⟩ := hk _ row hrow
  obtain ⟨r, hr⟩ := Option.isSome_iff_exists.mp hr
  obtain ⟨r', hr', _⟩ := hk _ r hr
  exact ⟨row', hrow', hb'.trans hb, hc' hc, Option.isSome_of_eq_some hr'⟩

/-! ## The store -/

variable {db : RunnerControlDb τ} {input : RotateResumeTokenInput}

theorem keepsTokens_rotateResumeToken :
    KeepsTokens db.tokens (RunnerControlStore.rotateResumeToken scope input db).2.tokens := by
  unfold RunnerControlStore.rotateResumeToken
  split
  · exact .refl _
  split
  · exact .refl _
  split
  · exact keepsTokens_consumeToken _ _ _
  split
  · split <;> exact .refl _
  · have hi : ∀ r, KeepsTokens db.tokens ((db.tokens.insert r).getD db.tokens) :=
      fun r _ row' hk => ⟨row', get_getD_insert hk, rfl, rfl, id⟩
    exact (hi _).trans (keepsTokens_consumeToken _ _ _)

/-- A binding is only returned for an unexpired credential of the presented identity, which
is rotated then. -/
theorem rotated_of_rotate {outcome : RotateOutcome} {binding : ResumeTokenBinding}
    (h : (RunnerControlStore.rotateResumeToken scope input db).1 =
      .ok (some (outcome, binding))) :
    (∃ row, db.tokens.get (scope, input.presentedTokenHash) = some row ∧
      RunnerControlStore.presentedBy input.presented row ∧ ¬ row.expiresAt ≤ input.rotatedAt ∧
      row.binding = binding) ∧
    Rotated scope input.presentedTokenHash input.replacementTokenHash binding
      (RunnerControlStore.rotateResumeToken scope input db).2.tokens := by
  unfold RunnerControlStore.rotateResumeToken at h ⊢
  split at h
  · cases h
  next row hrow =>
  split at h
  · cases h
  next hp =>
  rw [Bool.not_eq_true', Bool.not_eq_false] at hp
  split at h
  · cases h
  next hexp =>
  simp only [hrow, hp, hexp, if_false, Bool.not_true, Bool.false_eq_true]
  split at h
  · next hc =>
    rw [if_pos hc]
    split at h
    · cases h
    · next replacement hr =>
      cases h
      exact ⟨⟨row, rfl, hp, hexp, rfl⟩, row, hrow, rfl, hc, Option.isSome_of_eq_some hr⟩
  · next hc =>
    cases h
    rw [if_neg hc]
    refine ⟨⟨row, rfl, hp, hexp, rfl⟩, row.setConsumedAt input.rotatedAt, ?_, rfl, rfl, ?_⟩
    · unfold RunnerControlStore.consumeToken
      rw [Table.get_update, get_getD_insert hrow, Option.map_some, if_pos]
      rw [Option.not_isSome_iff_eq_none] at hc
      simp [(Table.get_eq_some_iff.mp hrow).2, hc]
    · obtain ⟨r, hr⟩ := Option.isSome_iff_exists.mp (isSome_getD_insert
        ⟨scope, input.replacementTokenHash, row.binding, input.replacementExpiresAt, none⟩)
      obtain ⟨r', hr', _⟩ := keepsTokens_consumeToken input.presentedTokenHash
        (fun r => r.consumedAt.isNone) input.rotatedAt _ r hr
      exact Option.isSome_of_eq_some hr'

/-- A rotated credential that is presented by its identity before it expires is answered
with its binding. -/
theorem rotate_of_rotated {binding : ResumeTokenBinding} {row : TokenRow τ}
    (h : Rotated scope input.presentedTokenHash input.replacementTokenHash binding db.tokens)
    (hrow : db.tokens.get (scope, input.presentedTokenHash) = some row)
    (hp : RunnerControlStore.presentedBy input.presented row)
    (hexp : ¬ row.expiresAt ≤ input.rotatedAt) :
    (RunnerControlStore.rotateResumeToken scope input db).1 =
      .ok (some (.idempotentRetry, binding)) := by
  obtain ⟨row', hrow', rfl, hc, hr⟩ := h
  rw [hrow] at hrow'
  cases hrow'
  obtain ⟨replacement, hr⟩ := Option.isSome_iff_exists.mp hr
  unfold RunnerControlStore.rotateResumeToken
  simp only [hrow, hp, hexp, hc, hr, if_true, if_false, Bool.not_true, Bool.false_eq_true]

theorem linear_rotateResumeToken (hl : Linear o generate drawn db.tokens)
    (hd : DigestsInjective o.platform) (hf : FreshTokens o generate) {token : String}
    (hp : input.presentedTokenHash = RunnerResumeTokenService.hashToken o token)
    (hr : input.replacementTokenHash = RunnerResumeTokenService.hashToken o
      (RunnerResumeTokenService.deriveReplacementToken o token)) :
    Linear o generate drawn (RunnerControlStore.rotateResumeToken scope input db).2.tokens := by
  unfold RunnerControlStore.rotateResumeToken
  split
  · exact hl
  next row hrow =>
  split
  · exact hl
  split
  · exact hl.consume (consumedOf_consumeToken _ _ _ _)
  split
  · split <;> exact hl
  · next hc =>
    rw [Option.not_isSome_iff_eq_none] at hc
    rw [hp] at hrow ⊢
    exact hl.rotate hd hf hrow hc rfl rfl hr

/-! ## The service -/

variable {O : Oracle} {w : World τ}

variable (o O) in
/-- What the store is asked when a credential is presented. -/
def redeemInput (token : String) (presented : ResumePresentedIdentity) (w : World τ) :
    RotateResumeTokenInput where
  presentedTokenHash := RunnerResumeTokenService.hashToken o token
  replacementTokenHash := RunnerResumeTokenService.hashToken o
    (RunnerResumeTokenService.deriveReplacementToken o token)
  replacementExpiresAt := toISOString (O.now w.draws + o.resumeTtlMs)
  presented := presented
  rotatedAt := toISOString (O.now (w.draws + 1))

/-- The reply to a redemption from the answer of the store. -/
def redemption (o : CoreOptions) (token : String) :
    Option (RotateOutcome × ResumeTokenBinding) → Except CoreError (ResumeTokenBinding × String)
  | some (_, binding) => .ok (binding, RunnerResumeTokenService.deriveReplacementToken o token)
  | none => .error (.application .runnerResumeRejected
      "unknown, expired, or already-consumed resume token" [])

/-- A redemption is one step of the store. -/
theorem run_redeem (token : String) (presented : ResumePresentedIdentity) :
    (RunnerResumeTokenService.redeem o token presented).Ends (handler o.platform O scope)
      (fun r t =>
        let step := w.tick.tick.onDb O
          (RunnerControlStore.rotateResumeToken scope (redeemInput o O token presented w))
        r = step.1.bind (redemption o token) ∧ t = step.2) w := by
  refine Program.ends_bind (fun n t => n = O.now w.draws ∧ t = w.tick)
    (ends_perform .now ⟨rfl, rfl⟩) ?_
  rintro _ _ ⟨rfl, rfl⟩
  refine Program.ends_bind
    (fun rotatedAt t => rotatedAt = toISOString (O.now (w.draws + 1)) ∧ t = w.tick.tick)
    (Program.ends_bind (fun n t => n = O.now (w.draws + 1) ∧ t = w.tick.tick)
      (ends_perform .now ⟨rfl, rfl⟩) fun n t hn =>
        ⟨congrArg (fun n : ℕ => toISOString n) hn.1, hn.2⟩) ?_
  rintro _ _ ⟨rfl, rfl⟩
  let step := w.tick.tick.onDb O
    (RunnerControlStore.rotateResumeToken scope (redeemInput o O token presented w))
  refine Program.ends_bind (fun answer t => step.1 = .ok answer ∧ t = step.2)
    (ends_perform (.rotateResumeToken (redeemInput o O token presented w)) ?_) ?_
  · split
    · next answer ha => exact ⟨ha, rfl⟩
    · next e he =>
      have hs : step.1 = .error e := he
      change .error e = step.1.bind (redemption o token) ∧ step.2 = step.2
      rw [hs]
      exact ⟨rfl, rfl⟩
  · rintro answer _ ⟨hs, rfl⟩
    change Program.Ends _ (fun r t => r = step.1.bind (redemption o token) ∧ t = step.2) _ _
    rw [hs]
    rcases answer with _ | ⟨outcome, binding⟩
    · exact ⟨rfl, rfl⟩
    · exact ⟨rfl, rfl⟩

/-- Issuing a credential is one step of the store, with a drawn text. -/
theorem run_issue (binding : ResumeTokenBinding) :
    (RunnerResumeTokenService.issue o binding).Ends (handler o.platform O scope)
      (fun _ t => t = (w.tick.tick.onDb O (RunnerControlStore.issueResumeToken scope
        (RunnerResumeTokenService.hashToken o (O.generate w.draws)) binding
        (toISOString (O.now (w.draws + 1) + o.resumeTtlMs)))).2) w := by
  refine Program.ends_bind (fun token t => token = O.generate w.draws ∧ t = w.tick)
    (ends_perform .generate ⟨rfl, rfl⟩) ?_
  rintro _ _ ⟨rfl, rfl⟩
  refine Program.ends_bind (fun n t => n = O.now (w.draws + 1) ∧ t = w.tick.tick)
    (ends_perform .now ⟨rfl, rfl⟩) ?_
  rintro _ _ ⟨rfl, rfl⟩
  refine Program.ends_bind (fun _ t => t = (w.tick.tick.onDb O
    (RunnerControlStore.issueResumeToken scope
      (RunnerResumeTokenService.hashToken o (O.generate w.draws)) binding
      (toISOString (O.now (w.draws + 1) + o.resumeTtlMs)))).2)
    (ends_perform (.issueResumeToken _ _ _) ?_) fun _ _ h => h
  split <;> rfl

/-! ## Histories -/

inductive TokenCall where
  | issue (binding : ResumeTokenBinding)
  | redeem (token : String) (presented : ResumePresentedIdentity)

/-- A use of the resume token service of a tenant. -/
structure TokenEvent (τ : Type) where
  scope : τ
  call : TokenCall

variable (o O) in
def TokenEvent.step (w : World τ) (e : TokenEvent τ) : World τ :=
  match e.call with
  | .issue binding =>
    ((RunnerResumeTokenService.issue o binding).run (handler o.platform O e.scope) w).2
  | .redeem token presented =>
    ((RunnerResumeTokenService.redeem o token presented).run (handler o.platform O e.scope) w).2

variable (o O) in
/-- The world after a sequence of issues and redemptions. -/
def World.afterTokens (events : List (TokenEvent τ)) : World τ :=
  events.foldl (TokenEvent.step o O) .initial

omit [DecidableEq τ] in
theorem draws_onDb {α : Type} (f : RunnerControlDb τ → StoreResult τ α) :
    (w.onDb O f).2.draws = w.draws + 1 := by
  unfold World.onDb
  cases O.fault w.draws <;> rfl

/-- What a step does to the token table. -/
theorem tokens_step (e : TokenEvent τ) :
    (e.step o O w).draws = w.draws + 3 ∧
    ((e.step o O w).db = w.db ∨
      (∃ binding expiresAt, (e.step o O w).db = (RunnerControlStore.issueResumeToken e.scope
        (RunnerResumeTokenService.hashToken o (O.generate w.draws)) binding expiresAt w.db).2) ∨
      ∃ token presented, (e.step o O w).db = (RunnerControlStore.rotateResumeToken e.scope
        (redeemInput o O token presented w) w.db).2) := by
  obtain ⟨scope, call⟩ := e
  cases call with
  | issue binding =>
    have hrun : (TokenEvent.step o O w ⟨scope, .issue binding⟩) = _ := run_issue binding
    rw [hrun]
    refine ⟨draws_onDb _, ?_⟩
    rcases onDb_db (O := O) (w := w.tick.tick) (RunnerControlStore.issueResumeToken scope
      (RunnerResumeTokenService.hashToken o (O.generate w.draws)) binding
      (toISOString (O.now (w.draws + 1) + o.resumeTtlMs))) with he | he
    · exact .inl he
    · exact .inr (.inl ⟨binding, _, he⟩)
  | redeem token presented =>
    have hrun : (TokenEvent.step o O w ⟨scope, .redeem token presented⟩) = _ :=
      (run_redeem token presented).2
    rw [hrun]
    refine ⟨draws_onDb _, ?_⟩
    rcases onDb_db (O := O) (w := w.tick.tick) (RunnerControlStore.rotateResumeToken scope
      (redeemInput o O token presented w)) with he | he
    · exact .inl he
    · exact .inr (.inr ⟨token, presented, he⟩)

theorem keepsTokens_step (e : TokenEvent τ) :
    KeepsTokens w.db.tokens (e.step o O w).db.tokens := by
  obtain ⟨_, he | ⟨binding, expiresAt, he⟩ | ⟨token, presented, he⟩⟩ :=
    tokens_step (o := o) (O := O) (w := w) e
  · rw [he]
    exact .refl _
  · rw [he]
    unfold RunnerControlStore.issueResumeToken
    split
    · next hi => exact fun _ row hk => ⟨row, Table.get_of_insert_of_get hi hk, rfl, rfl, id⟩
    · exact .refl _
  · rw [he]
    exact keepsTokens_rotateResumeToken

theorem keepsTokens_foldl (events : List (TokenEvent τ)) :
    KeepsTokens w.db.tokens (events.foldl (TokenEvent.step o O) w).db.tokens :=
  List.foldlRecOn (motive := fun t : World τ => KeepsTokens w.db.tokens t.db.tokens)
    events _ (.refl _) fun _ ht e _ => ht.trans (keepsTokens_step e)

theorem linear_step (hd : DigestsInjective o.platform) (hf : FreshTokens o O.generate)
    (hl : Linear o O.generate w.draws w.db.tokens) (e : TokenEvent τ) :
    Linear o O.generate (e.step o O w).draws (e.step o O w).db.tokens := by
  have hl' : Linear o O.generate (w.draws + 3) w.db.tokens := hl.mono (by omega)
  obtain ⟨hdraws, he | ⟨binding, expiresAt, he⟩ | ⟨token, presented, he⟩⟩ :=
    tokens_step (o := o) (O := O) (w := w) e
  · rw [hdraws, he]
    exact hl'
  · rw [hdraws, he]
    unfold RunnerControlStore.issueResumeToken
    split
    · next hi => exact (hl.issue hd hf hi rfl).mono (by omega)
    · exact hl'
  · rw [hdraws, he]
    exact linear_rotateResumeToken hl' hd hf rfl rfl

theorem linear_afterTokens (hd : DigestsInjective o.platform) (hf : FreshTokens o O.generate)
    (events : List (TokenEvent τ)) :
    Linear o O.generate (World.afterTokens o O events).draws
      (World.afterTokens o O events).db.tokens :=
  List.foldlRecOn (motive := fun w : World τ => Linear o O.generate w.draws w.db.tokens)
    events _ ⟨nofun, nofun, nofun⟩ fun _ hl e _ => linear_step hd hf hl e

/-! ## Redemptions -/

/-- A redemption succeeds exactly when the store is there and answers with a binding. -/
theorem redeem_eq_ok {token : String} {presented : ResumePresentedIdentity}
    {x : ResumeTokenBinding × String} :
    ((RunnerResumeTokenService.redeem o token presented).run
      (handler o.platform O scope) w).1 = .ok x ↔
    O.fault (w.draws + 2) = .none ∧ ∃ outcome, (RunnerControlStore.rotateResumeToken scope
      (redeemInput o O token presented w) w.db).1 = .ok (some (outcome, x.1)) ∧
      x.2 = RunnerResumeTokenService.deriveReplacementToken o token := by
  rw [(run_redeem token presented).1]
  have hdraws : w.tick.tick.draws = w.draws + 2 := rfl
  have hdb : w.tick.tick.db = w.db := rfl
  unfold World.onDb
  rw [hdraws, hdb]
  cases hfault : O.fault (w.draws + 2) with
  | before => exact ⟨nofun, fun h => nomatch h.1⟩
  | after => exact ⟨nofun, fun h => nomatch h.1⟩
  | none =>
    dsimp only
    generalize (RunnerControlStore.rotateResumeToken scope (redeemInput o O token presented w)
      w.db).1 = answer
    constructor
    · intro h
      refine ⟨rfl, ?_⟩
      rcases answer with e | _ | ⟨outcome, binding⟩
      · cases h
      · cases h
      · cases h
        exact ⟨outcome, rfl, rfl⟩
    · rintro ⟨-, outcome, rfl, hx⟩
      obtain ⟨binding, replacement⟩ := x
      cases hx
      rfl

variable (o O) in
/-- A credential that was rotated is presented again by its identity before it expires: the
reply is the one of the first rotation, also when that one did not arrive. -/
def Replays (w : World τ) : Prop :=
  ∀ scope token presented outcome binding (later : List (TokenEvent τ)),
    O.fault (w.draws + 2) ≠ .before →
    (RunnerControlStore.rotateResumeToken scope (redeemInput o O token presented w) w.db).1 =
      .ok (some (outcome, binding)) →
    let t := later.foldl (TokenEvent.step o O)
      (TokenEvent.step o O w ⟨scope, .redeem token presented⟩)
    (∀ row, t.db.tokens.get (scope, RunnerResumeTokenService.hashToken o token) = some row →
      ¬ row.expiresAt ≤ toISOString (O.now (t.draws + 1))) →
    O.fault (t.draws + 2) = .none →
    ((RunnerResumeTokenService.redeem o token presented).run
      (handler o.platform O scope) t).1 =
      .ok (binding, RunnerResumeTokenService.deriveReplacementToken o token)

variable (o O) in
/-- A presented credential leads to a session only while it is not expired and by the
identity it is bound to. -/
def BoundAndLive (w : World τ) : Prop :=
  ∀ scope token presented binding replacement,
    ((RunnerResumeTokenService.redeem o token presented).run
      (handler o.platform O scope) w).1 = .ok (binding, replacement) →
    ∃ row, w.db.tokens.get (scope, RunnerResumeTokenService.hashToken o token) = some row ∧
      RunnerControlStore.presentedBy presented row ∧
      ¬ row.expiresAt ≤ toISOString (O.now (w.draws + 1)) ∧ row.binding = binding ∧
      replacement = RunnerResumeTokenService.deriveReplacementToken o token

theorem replays (w : World τ) : Replays o O w := by
  intro scope token presented outcome binding later hfault hfirst t hexp hfault'
  obtain ⟨⟨row, hrow, hp, _, rfl⟩, hrot⟩ := rotated_of_rotate hfirst
  have hdb : (TokenEvent.step o O w ⟨scope, .redeem token presented⟩).db =
      (RunnerControlStore.rotateResumeToken scope (redeemInput o O token presented w) w.db).2 := by
    have hrun : (TokenEvent.step o O w ⟨scope, .redeem token presented⟩) = _ :=
      (run_redeem token presented).2
    have hdraws : w.tick.tick.draws = w.draws + 2 := rfl
    rw [hrun]
    unfold World.onDb
    rw [hdraws]
    cases hf : O.fault (w.draws + 2) with
    | none => rfl
    | before => exact absurd hf hfault
    | after => rfl
  have hkeep : KeepsTokens (RunnerControlStore.rotateResumeToken scope
      (redeemInput o O token presented w) w.db).2.tokens t.db.tokens := by
    have h := keepsTokens_foldl (o := o) (O := O)
      (w := TokenEvent.step o O w ⟨scope, .redeem token presented⟩) later
    rwa [hdb] at h
  obtain ⟨row', hrow', hb', he', _⟩ := (keepsTokens_rotateResumeToken.trans hkeep) _ row hrow
  have hp' : RunnerControlStore.presentedBy presented row' := by
    unfold RunnerControlStore.presentedBy
    rw [hb']
    exact hp
  refine redeem_eq_ok.mpr ⟨hfault', .idempotentRetry, ?_, rfl⟩
  exact rotate_of_rotated (hrot.keeps hkeep) hrow' hp' (hexp row' hrow')

theorem boundAndLive (w : World τ) : BoundAndLive o O w := by
  intro scope token presented binding replacement h
  obtain ⟨_, outcome, ha, hr⟩ := redeem_eq_ok.mp h
  obtain ⟨⟨row, hrow, hp, hexp, hb⟩, _⟩ := rotated_of_rotate ha
  exact ⟨row, hrow, hp, hexp, hb, hr⟩

/-- After every sequence of issues and redemptions, with any identities, clocks, failures
and replays, every chain has at most one credential that is not consumed, a replay leads to
the replacement and the binding of the first rotation, and no credential leads to a session
for another identity or after its expiry. -/
theorem resume_chains_linear (o : CoreOptions) (O : Oracle) (hd : DigestsInjective o.platform)
    (hf : FreshTokens o O.generate) (events : List (TokenEvent τ)) :
    Linear o O.generate (World.afterTokens o O events).draws
      (World.afterTokens o O events).db.tokens ∧
    Replays o O (World.afterTokens o O events) ∧
    BoundAndLive o O (World.afterTokens o O events) :=
  ⟨linear_afterTokens hd hf events, replays _, boundAndLive _⟩

end Keys

end Chains

/-! ## A concrete chain -/

/-- The replacement of the credential `token`. -/
def sampleReplacement : String := "InjQfSLzUzWQfUizN2BOcQVQoXT8Dg_2ZUvMoPTy_Tw"

def chainPlatform : Platform where
  sha256Hex := digestOf
    [("token".toList, "3c469e9d6c5875d37a43f353d4f88e61fcf812c66eee3457465a40b0da4153e0"),
      (sampleReplacement.toList,
        "de4c54f312da7c0e980e575f5cc41ea53159e5d2b44e38c4865836555be29839")]
  sha256Base64url := digestOf [("qualigence:resume-rotation:v1:token".toList, sampleReplacement)]
  newUrl := sampleCore.platform.newUrl
  bindText := sampleCore.platform.bindText

def chainCore : CoreOptions := { sampleCore with platform := chainPlatform }

/-- The first text is `token`; no text is the digest of another. -/
def chainOracle : Oracle :=
  { sampleOracle with
    generate := fun n => if n = 0 then "token" else String.ofList (List.replicate n 'f') }

theorem digestsInjective_chainPlatform : DigestsInjective chainPlatform :=
  ⟨digestOf_injective (by decide) (by decide), digestOf_injective (by decide) (by decide)⟩

theorem toList_generate_succ (n : ℕ) :
    (chainOracle.generate (n + 1)).toList = 'f' :: List.replicate n 'f' :=
  String.toList_ofList

theorem head_generate (n : ℕ) : (chainOracle.generate n).toList.head? = some 't' ∨
    (chainOracle.generate n).toList.head? = some 'f' := by
  cases n with
  | zero => exact .inl (by decide)
  | succ n =>
    rw [toList_generate_succ]
    exact .inr rfl

theorem head_derived (token : String) :
    (RunnerResumeTokenService.deriveReplacementToken chainCore token).toList.head? = some 'I' ∨
    (RunnerResumeTokenService.deriveReplacementToken chainCore token).toList.head? =
      some 'x' := by
  change (digestOf [(_, sampleReplacement)] _).toList.head? = _ ∨
    (digestOf [(_, sampleReplacement)] _).toList.head? = _
  unfold digestOf
  rw [List.find?_singleton]
  split
  · have hr : sampleReplacement.toList.head? = some 'I' := by decide
    exact .inl hr
  · exact .inr (plainText_head _)

theorem freshTokens_chainOracle : FreshTokens chainCore chainOracle.generate := by
  intro i j rotations h
  have hl := congrArg String.toList h
  cases rotations with
  | zero =>
    change (chainOracle.generate i).toList = _ at hl
    cases i with
    | zero =>
      cases j with
      | zero => rfl
      | succ j =>
        rw [toList_generate_succ] at hl
        cases hl
    | succ i =>
      rw [toList_generate_succ] at hl
      cases j with
      | zero => cases hl
      | succ j =>
        rw [toList_generate_succ] at hl
        simpa using congrArg List.length hl
  | succ rotations =>
    -- derived texts start with other letters than generated ones
    rw [credential_succ] at hl
    have hh := congrArg List.head? hl
    rcases head_derived (credential chainCore (chainOracle.generate i) rotations) with hd | hd <;>
      rcases head_generate j with hg | hg <;> rw [hd, hg] at hh <;> cases hh

/-- A credential is issued, rotated, presented again, and its replacement is presented. -/
def chainEvents : List (TokenEvent Unit) :=
  [⟨(), .issue ⟨"runner", "fingerprint", "session", 1⟩⟩,
    ⟨(), .redeem "token" ⟨"runner", "fingerprint", 1⟩⟩,
    ⟨(), .redeem "token" ⟨"runner", "fingerprint", 1⟩⟩,
    ⟨(), .redeem sampleReplacement ⟨"runner", "other", 1⟩⟩]

theorem resume_chains_linear_sample :
    (World.afterTokens chainCore chainOracle chainEvents).db.tokens.rows.map
      (fun r => (r.tokenHash, r.consumedAt)) =
      [("3c469e9d6c5875d37a43f353d4f88e61fcf812c66eee3457465a40b0da4153e0",
          some "1970-01-01T00:00:20.000Z"),
        ("de4c54f312da7c0e980e575f5cc41ea53159e5d2b44e38c4865836555be29839", none)] ∧
    Linear chainCore chainOracle.generate 12
      (World.afterTokens chainCore chainOracle chainEvents).db.tokens ∧
    Replays chainCore chainOracle (World.afterTokens chainCore chainOracle chainEvents) ∧
    BoundAndLive chainCore chainOracle (World.afterTokens chainCore chainOracle chainEvents) :=
  ⟨by decide, resume_chains_linear chainCore chainOracle digestsInjective_chainPlatform
    freshTokens_chainOracle chainEvents⟩

end Qualigence.Core
