import Qualigence.Protocol.Job

/-! # Parsed values are read back

A value that a parser returned is written as an object that the same parser accepts, with
the same result. Scalars and lists are exactly what they were parsed from; an object that
was parsed may have had other properties or another order.
-/

namespace Qualigence.Protocol

open Foundation

namespace JsValue

theorem field_nil (key : String) : field key [] = undefined := rfl

theorem field_self (key : String) (v : JsValue) (fields : List (String × JsValue)) :
    field key ((key, v) :: fields) = v := if_pos rfl

theorem field_of_ne {key k : String} (h : k ≠ key) (v : JsValue)
    (fields : List (String × JsValue)) : field key ((k, v) :: fields) = field key fields :=
  if_neg h

theorem field_optional_self (key : String) (o : Option JsValue)
    (fields : List (String × JsValue)) :
    field key (optional key o ++ fields) = o.getD (field key fields) := by
  cases o with
  | none => rfl
  | some v => exact field_self key v fields

theorem field_optional_of_ne {key k : String} (h : k ≠ key) (o : Option JsValue)
    (fields : List (String × JsValue)) :
    field key (optional k o ++ fields) = field key fields := by
  cases o with
  | none => rfl
  | some v => exact field_of_ne h v fields

theorem field_optional_only (key : String) (o : Option JsValue) :
    field key (optional key o) = o.getD undefined := by
  have h := field_optional_self key o []
  rwa [List.append_nil] at h

theorem field_optional_only_of_ne {key k : String} (h : k ≠ key) (o : Option JsValue) :
    field key (optional k o) = undefined := by
  have h := field_optional_of_ne h o []
  rwa [List.append_nil] at h

end JsValue

section Exact

variable {ε α β : Type}

/-- What a parser returns is written as what it was parsed from. -/
def Exact (parse : β → Except ε α) (write : α → β) : Prop :=
  ∀ {v a}, parse v = .ok a → v = write a

/-- What a parser returns is parsed again from what it is written as. -/
def ReadsBack (parse : β → Except ε α) (write : α → β) : Prop :=
  ∀ {v a}, parse v = .ok a → parse (write a) = .ok a

theorem Exact.readsBack {parse : β → Except ε α} {write : α → β} (h : Exact parse write) :
    ReadsBack parse write := by
  intro v a hv
  rw [← h hv]
  exact hv

theorem Exact.mapM {parse : β → Except ε α} {write : α → β} (h : Exact parse write) :
    Exact (List.mapM parse) (List.map write) := by
  intro vs
  induction vs with
  | nil =>
    intro as hv
    cases hv
    rfl
  | cons v vs ih =>
    intro as hv
    rw [List.mapM_cons] at hv
    obtain ⟨a, ha, hv⟩ := bind_eq_ok.mp hv
    obtain ⟨rest, hr, hv⟩ := bind_eq_ok.mp hv
    cases hv
    rw [List.map_cons, ← h ha, ← ih hr]

theorem ReadsBack.mapM {parse : β → Except ε α} {write : α → β} (h : ReadsBack parse write) :
    ReadsBack (List.mapM parse) (List.map write) := by
  intro vs
  induction vs with
  | nil =>
    intro as hv
    cases hv
    rfl
  | cons v vs ih =>
    intro as hv
    rw [List.mapM_cons] at hv
    obtain ⟨a, ha, hv⟩ := bind_eq_ok.mp hv
    obtain ⟨rest, hr, hv⟩ := bind_eq_ok.mp hv
    cases hv
    rw [List.map_cons, List.mapM_cons, h ha, ih hr]
    rfl

/-- Entries that are parsed with their positions. -/
theorem exact_mapM_zipIdx {parse : β × ℕ → Except ε α} {write : α → β}
    (h : ∀ {e a}, parse e = .ok a → e.1 = write a) {vs : List β} {as : List α} {n : ℕ}
    (hv : (vs.zipIdx n).mapM parse = .ok as) : vs = as.map write := by
  induction vs generalizing as n with
  | nil =>
    cases hv
    rfl
  | cons v vs ih =>
    rw [List.zipIdx_cons, List.mapM_cons] at hv
    obtain ⟨a, ha, hv⟩ := bind_eq_ok.mp hv
    obtain ⟨rest, hr, hv⟩ := bind_eq_ok.mp hv
    cases hv
    rw [List.map_cons, ← h ha, ← ih hr]

end Exact

/-! ## Desktop targets -/

namespace AppTarget

variable {code : AppTargetErrorCode} {name : String} {maxLength : ℕ} {v : JsValue}

theorem eq_of_requireString {s : String} (h : requireString v code name maxLength = .ok s) :
    v = .str s := by
  unfold requireString invalid at h
  split at h
  · split at h
    · cases h
    · split at h
      · cases h
      · cases h
        rfl
  · cases h

theorem eq_of_requireCanonicalExecutable {s : String} (h : requireCanonicalExecutable v = .ok s) :
    v = .str s := by
  unfold requireCanonicalExecutable at h
  obtain ⟨e, he, h⟩ := bind_eq_ok.mp h
  split at h
  · cases h
    exact eq_of_requireString he
  · cases h

theorem eq_of_requireArgs {args : List String} (h : requireArgs v code name = .ok args) :
    v = strings args := by
  unfold requireArgs invalid at h
  split at h
  · split at h
    · cases h
    · refine congrArg JsValue.arr (exact_mapM_zipIdx ?_ h)
      intro e s he
      unfold requireArg invalid at he
      split at he
      · next hs =>
        split at he
        · cases he
        · cases he
          exact hs
      · cases he
  · cases h

theorem eq_of_requireImageName {s : String} (h : requireImageName v name = .ok s) :
    v = .str s := by
  unfold requireImageName invalid at h
  obtain ⟨e, he, h⟩ := bind_eq_ok.mp h
  split at h
  · cases h
  · cases h
    exact eq_of_requireString he

theorem eq_of_requireTimeoutMs {n : ℕ} (h : requireTimeoutMs v code name = .ok n) :
    v = .int n := by
  unfold requireTimeoutMs invalid minTimeoutMs at h
  split at h
  · split at h
    · cases h
    · next hm =>
      cases h
      rw [not_or, not_lt] at hm
      exact congrArg JsValue.int (Int.toNat_of_nonneg hm.1).symm
  · cases h

theorem eq_of_requireRecord {message : String} {fields : List (String × JsValue)}
    (h : requireRecord v code message = .ok fields) : v = .obj fields := by
  unfold requireRecord invalid at h
  split at h
  · cases h
    rfl
  · cases h

/-- An absent text is read as absent again. -/
theorem optionalString_readsBack {o : Option String}
    (h : optionalString v code name maxLength = .ok o) :
    optionalString ((o.map JsValue.str).getD .undefined) code name maxLength = .ok o := by
  unfold optionalString at h
  split at h
  · cases h
    rfl
  · obtain ⟨s, hs, h⟩ := bind_eq_ok.mp h
    cases h
    have hv := eq_of_requireString hs
    subst hv
    change some <$> requireString (.str s) code name maxLength = _
    rw [hs]
    rfl

/-- The object of the launch part. -/
def launchValue (l : AppTargetLaunch) : JsValue :=
  .obj ([("executable", .str l.executable), ("args", strings l.args)] ++
    JsValue.optional "workingDirectory" (l.workingDirectory.map .str))

theorem validateLaunch_readsBack : ReadsBack validateLaunch launchValue := by
  intro v l h
  unfold validateLaunch at h
  obtain ⟨fields, hv, h⟩ := bind_eq_ok.mp h
  split at h
  · cases h
  obtain ⟨executable, he, h⟩ := bind_eq_ok.mp h
  obtain ⟨args, ha, h⟩ := bind_eq_ok.mp h
  obtain ⟨workingDirectory, hw, h⟩ := bind_eq_ok.mp h
  split at h
  · next hc =>
    cases h
    have hcommand : (("executable", JsValue.str executable) :: ("args", strings args) ::
        JsValue.optional "workingDirectory" (workingDirectory.map .str)).any
        (fun f => f.1 == "command") = false := by
      cases workingDirectory <;> rfl
    rw [eq_of_requireCanonicalExecutable he] at he
    rw [eq_of_requireArgs ha] at ha
    have hw' := optionalString_readsBack hw
    unfold validateLaunch launchValue
    simp only [requireRecord, hcommand, JsValue.field_self, JsValue.field_of_ne, ne_eq,
      String.reduceEq, not_false_eq_true, List.cons_append, List.nil_append,
      JsValue.field_optional_only, if_true, if_false, he, ha, hw', hc, bind, Except.bind,
      Bool.false_eq_true]
  · cases h

/-- The object of the process part. -/
def processValue (p : AppTargetProcess) : JsValue :=
  .obj [("expectedImageName", .str p.expectedImageName),
    ("allowedChildImageNames", strings p.allowedChildImageNames)]

theorem validateProcess_readsBack : ReadsBack validateProcess processValue := by
  intro v p h
  unfold validateProcess at h
  obtain ⟨fields, hv, h⟩ := bind_eq_ok.mp h
  obtain ⟨expected, he, h⟩ := bind_eq_ok.mp h
  split at h
  · next items hi =>
    split at h
    · cases h
    next hlen =>
    obtain ⟨names, hn, h⟩ := bind_eq_ok.mp h
    cases h
    have hitems : items = names.map .str :=
      exact_mapM_zipIdx (fun he => eq_of_requireImageName he) hn
    rw [eq_of_requireImageName he] at he
    subst hitems
    have hexpected : JsValue.field "expectedImageName" [("expectedImageName", .str expected),
        ("allowedChildImageNames", strings names)] = .str expected := rfl
    have hallowed : JsValue.field "allowedChildImageNames" [("expectedImageName", .str expected),
        ("allowedChildImageNames", strings names)] = .arr (names.map .str) := by
      simp only [JsValue.field_self, JsValue.field_of_ne, ne_eq, String.reduceEq, not_false_eq_true]
      rfl
    unfold validateProcess processValue
    refine bind_eq_ok.mpr ⟨_, rfl, ?_⟩
    rw [hexpected, hallowed]
    refine bind_eq_ok.mpr ⟨expected, he, ?_⟩
    dsimp only
    rw [if_neg hlen]
    exact bind_eq_ok.mpr ⟨names, hn, rfl⟩
  · cases h

/-- The object of the window part. -/
def windowValue (w : AppTargetWindow) : JsValue :=
  .obj (JsValue.optional "titlePattern" (w.titlePattern.map .str) ++
    JsValue.optional "automationId" (w.automationId.map .str))

theorem validateWindow_readsBack : ReadsBack validateWindow windowValue := by
  intro v w h
  unfold validateWindow at h
  obtain ⟨fields, hv, h⟩ := bind_eq_ok.mp h
  obtain ⟨titlePattern, ht, h⟩ := bind_eq_ok.mp h
  obtain ⟨automationId, ha, h⟩ := bind_eq_ok.mp h
  cases h
  have ht' := optionalString_readsBack ht
  have ha' := optionalString_readsBack ha
  unfold validateWindow windowValue
  simp only [requireRecord, JsValue.field_optional_self, JsValue.field_optional_of_ne,
    JsValue.field_optional_only, JsValue.field_optional_only_of_ne, ne_eq, String.reduceEq,
    not_false_eq_true, ht', ha', bind, Except.bind]

/-- The object of the reset part. -/
def resetValue (r : AppTargetReset) : JsValue :=
  .obj [("command", .str r.command), ("args", strings r.args), ("timeoutMs", .int r.timeoutMs)]

theorem validateReset_readsBack : ReadsBack validateReset resetValue := by
  intro v r h
  unfold validateReset at h
  obtain ⟨fields, hv, h⟩ := bind_eq_ok.mp h
  obtain ⟨command, hc, h⟩ := bind_eq_ok.mp h
  obtain ⟨args, ha, h⟩ := bind_eq_ok.mp h
  split at h
  · cases h
  obtain ⟨timeoutMs, ht, h⟩ := bind_eq_ok.mp h
  cases h
  rw [eq_of_requireCanonicalExecutable hc] at hc
  rw [eq_of_requireArgs ha] at ha
  rw [eq_of_requireTimeoutMs ht] at ht
  unfold validateReset resetValue
  simp only [requireRecord, JsValue.field_self, JsValue.field_of_ne, ne_eq, String.reduceEq,
    not_false_eq_true, hc, ha, ht, bind, Except.bind]

/-- The object of the shutdown part. -/
def shutdownValue (s : AppTargetShutdown) : JsValue :=
  .obj [("gracefulTimeoutMs", .int s.gracefulTimeoutMs),
    ("forceAfterTimeout", .bool s.forceAfterTimeout)]

theorem validateShutdown_readsBack : ReadsBack validateShutdown shutdownValue := by
  intro v s h
  unfold validateShutdown at h
  obtain ⟨fields, hv, h⟩ := bind_eq_ok.mp h
  obtain ⟨timeoutMs, ht, h⟩ := bind_eq_ok.mp h
  split at h
  · next force hf =>
    cases h
    rw [eq_of_requireTimeoutMs ht] at ht
    have hforce : JsValue.field "forceAfterTimeout" [("gracefulTimeoutMs", .int timeoutMs),
        ("forceAfterTimeout", .bool force)] = .bool force := by
      simp only [JsValue.field_self, JsValue.field_of_ne, ne_eq, String.reduceEq, not_false_eq_true]
    unfold validateShutdown shutdownValue
    refine bind_eq_ok.mpr ⟨_, rfl, bind_eq_ok.mpr ⟨timeoutMs, ht, ?_⟩⟩
    rw [hforce]
  · cases h

theorem toValue_eq (t : AppTarget) : t.toValue = .obj [("targetId", .str t.targetId),
    ("platform", .str "windows"), ("launch", launchValue t.launch),
    ("process", processValue t.process), ("window", windowValue t.window),
    ("reset", resetValue t.reset), ("shutdown", shutdownValue t.shutdown)] := rfl

theorem validateAppTarget_readsBack : ReadsBack validateAppTarget toValue := by
  intro v t h
  unfold validateAppTarget at h
  obtain ⟨fields, hv, h⟩ := bind_eq_ok.mp h
  obtain ⟨targetId, hid, h⟩ := bind_eq_ok.mp h
  split at h
  · obtain ⟨launch, hl, h⟩ := bind_eq_ok.mp h
    obtain ⟨process, hp, h⟩ := bind_eq_ok.mp h
    obtain ⟨window, hw, h⟩ := bind_eq_ok.mp h
    obtain ⟨reset, hr, h⟩ := bind_eq_ok.mp h
    obtain ⟨shutdown, hs, h⟩ := bind_eq_ok.mp h
    cases h
    rw [eq_of_requireString hid] at hid
    rw [toValue_eq]
    unfold validateAppTarget
    simp only [requireRecord, JsValue.field_self, JsValue.field_of_ne, ne_eq, String.reduceEq,
      not_false_eq_true, hid,
      validateLaunch_readsBack hl, validateProcess_readsBack hp, validateWindow_readsBack hw,
      validateReset_readsBack hr, validateShutdown_readsBack hs, bind, Except.bind]
  · cases h

end AppTarget

/-! ## Jobs -/

namespace Job

variable {v : JsValue}

theorem eq_of_record {fields : List (String × JsValue)} (h : record v = .ok fields) :
    v = .obj fields := by
  unfold record malformed at h
  split at h
  · cases h
    rfl
  · cases h

theorem eq_of_positiveSafeInteger {n : ℕ} (h : positiveSafeInteger v = .ok n) : v = .int n := by
  unfold positiveSafeInteger malformed at h
  split at h
  · split at h
    · next hn =>
      cases h
      exact congrArg JsValue.int (Int.toNat_of_nonneg hn.1.le).symm
    · cases h
  · cases h

theorem eq_of_nonNegativeSafeInteger {n : ℕ} (h : nonNegativeSafeInteger v = .ok n) :
    v = .int n := by
  unfold nonNegativeSafeInteger malformed at h
  split at h
  · split at h
    · next hn =>
      cases h
      exact congrArg JsValue.int (Int.toNat_of_nonneg hn.1).symm
    · cases h
  · cases h

theorem eq_of_array {xs : NonEmptyList JsValue} (h : array v = .ok xs) : v = .arr xs.toList := by
  unfold array malformed at h
  split at h
  · cases h
    rfl
  · cases h

/-- The entries of a tuple are parsed one by one. -/
theorem mapTuple_eq_ok {α β : Type} {f : α → Parse β} {xs : NonEmptyList α}
    {ys : NonEmptyList β} : mapTuple f xs = .ok ys ↔ xs.toList.mapM f = .ok ys.toList := by
  unfold mapTuple NonEmptyList.toList
  rw [List.mapM_cons, bind_eq_ok, bind_eq_ok]
  refine exists_congr fun a => and_congr_right fun _ => ?_
  rw [bind_eq_ok, bind_eq_ok]
  refine exists_congr fun rest => and_congr_right fun _ => ?_
  obtain ⟨first, others⟩ := ys
  constructor
  · intro h
    cases h
    rfl
  · intro h
    cases h
    rfl

theorem eq_of_stringTuple {xs : NonEmptyList String} (h : stringTuple v = .ok xs) :
    v = AppTarget.strings xs.toList := by
  unfold stringTuple at h
  obtain ⟨items, hi, h⟩ := bind_eq_ok.mp h
  have he := Exact.mapM (fun h => nonEmptyString_eq_ok h) (mapTuple_eq_ok.mp h)
  rw [eq_of_array hi, he]
  rfl

theorem optionalOf_readsBack {α : Type} {f : JsValue → Parse α} {write : α → JsValue}
    (hf : ReadsBack f write) (hw : ∀ a, write a ≠ .undefined) {o : Option α}
    (h : optionalOf f v = .ok o) : optionalOf f ((o.map write).getD .undefined) = .ok o := by
  unfold optionalOf at h
  split at h
  · cases h
    rfl
  · obtain ⟨a, ha, h⟩ := bind_eq_ok.mp h
    cases h
    have he : optionalOf f (write a) = some <$> f (write a) := by
      unfold optionalOf
      split
      · next hu => exact absurd hu (hw a)
      · rfl
    rw [Option.map_some, Option.getD_some, he, hf ha]
    rfl

/-- A text of a table is the text of its value. -/
theorem eq_of_enumValue {α : Type} [DecidableEq α] {table : List (String × α)}
    (ht : (table.map (·.2)).Nodup) {a : α} (h : enumValue table v = .ok a) :
    v = enumText table a := by
  unfold enumValue malformed at h
  split at h
  · next s =>
    split at h
    · next e he =>
      cases h
      have hk : e.1 = s := by simpa using List.find?_some he
      have hmem := List.mem_of_find?_eq_some he
      unfold enumText
      cases hf : table.find? fun e' => decide (e'.2 = e.2) with
      | none =>
        have hn := List.find?_eq_none.mp hf e hmem
        simp at hn
      | some e' =>
        have hv : e'.2 = e.2 := by simpa using List.find?_some hf
        have hee := List.inj_on_of_nodup_map ht (List.mem_of_find?_eq_some hf) hmem hv
        rw [hee, ← hk]
    · cases h
  · cases h

theorem eq_of_isoInstant {t : Timestamp} (h : isoInstant v = .ok t) : v = .str t := by
  unfold isoInstant at h
  obtain ⟨s, hs, h⟩ := bind_eq_ok.mp h
  split at h
  · cases h
    exact nonEmptyString_eq_ok hs
  · cases h

variable {P : Platform}

theorem eq_of_parseOrigin {s t : String} (h : parseOrigin P s = .ok t) : s = t := by
  unfold parseOrigin malformed at h
  split at h
  · cases h
  · split at h
    · split at h
      · cases h
        rfl
      · cases h
    · cases h

theorem eq_of_parseTargetUrl {s : String} (h : parseTargetUrl P v = .ok s) : v = .str s := by
  unfold parseTargetUrl at h
  obtain ⟨text, ht, h⟩ := bind_eq_ok.mp h
  split at h
  · split at h
    · cases h
      exact nonEmptyString_eq_ok ht
    · cases h
  · cases h

theorem parseExecutionPolicySnapshot_readsBack :
    ReadsBack (parseExecutionPolicySnapshot P) ExecutionPolicySnapshot.toValue := by
  intro v p h
  unfold parseExecutionPolicySnapshot at h
  obtain ⟨fields, hv, h⟩ := bind_eq_ok.mp h
  obtain ⟨policyId, hid, h⟩ := bind_eq_ok.mp h
  obtain ⟨environment, henv, h⟩ := bind_eq_ok.mp h
  obtain ⟨texts, htx, h⟩ := bind_eq_ok.mp h
  obtain ⟨origins, hor, h⟩ := bind_eq_ok.mp h
  obtain ⟨kindValues, hkv, h⟩ := bind_eq_ok.mp h
  obtain ⟨kinds, hk, h⟩ := bind_eq_ok.mp h
  obtain ⟨risk, hrisk, h⟩ := bind_eq_ok.mp h
  split at h
  · next exploration hx =>
    obtain ⟨issuedAt, hi, h⟩ := bind_eq_ok.mp h
    obtain ⟨expiresAt, he, h⟩ := bind_eq_ok.mp h
    split at h
    · cases h
    next h1 =>
    split at h
    · cases h
    next h2 =>
    split at h
    · cases h
    next h3 =>
    cases h
    have horigins : texts.toList = origins := by
      have hexact : Exact (parseOrigin P) id := fun h => eq_of_parseOrigin h
      have hm := hexact.mapM hor
      rwa [List.map_id] at hm
    have hkinds := Exact.mapM (fun h => eq_of_enumValue (by decide) h) hk
    rw [nonEmptyString_eq_ok hid] at hid
    rw [eq_of_enumValue (by decide) henv] at henv
    rw [eq_of_stringTuple htx, horigins] at htx
    rw [eq_of_array hkv, hkinds] at hkv
    rw [eq_of_enumValue (by decide) hrisk] at hrisk
    rw [eq_of_isoInstant hi] at hi
    rw [eq_of_isoInstant he] at he
    unfold parseExecutionPolicySnapshot ExecutionPolicySnapshot.toValue
    simp only [record, JsValue.field_self, JsValue.field_of_ne, ne_eq, String.reduceEq,
      not_false_eq_true, hid, henv, htx, hor, hkv, hk, hrisk, hi, he, h1, h2, h3, if_false, bind,
      Except.bind]
  · cases h

theorem parseTargetRef_readsBack : ReadsBack (parseTargetRef P) TargetRef.toValue := by
  intro v t h
  unfold parseTargetRef at h
  obtain ⟨fields, hv, h⟩ := bind_eq_ok.mp h
  split at h
  · obtain ⟨_, _, h⟩ := bind_eq_ok.mp h
    obtain ⟨url, hu, h⟩ := bind_eq_ok.mp h
    cases h
    rw [eq_of_parseTargetUrl hu] at hu
    refine bind_eq_ok.mpr ⟨_, rfl, ?_⟩
    rw [JsValue.field_self]
    refine bind_eq_ok.mpr ⟨(), rfl, ?_⟩
    rw [JsValue.field_of_ne (by decide), JsValue.field_self, hu]
    rfl
  · obtain ⟨_, _, h⟩ := bind_eq_ok.mp h
    split at h
    · next app ha =>
      cases h
      refine bind_eq_ok.mpr ⟨_, rfl, ?_⟩
      rw [JsValue.field_self]
      refine bind_eq_ok.mpr ⟨(), rfl, ?_⟩
      rw [JsValue.field_of_ne (by decide), JsValue.field_self,
        AppTarget.validateAppTarget_readsBack ha]
    · cases h
  · cases h

theorem parseExecutionPlanTarget_readsBack :
    ReadsBack parseExecutionPlanTarget ExecutionPlanTarget.toValue := by
  intro v t h
  unfold parseExecutionPlanTarget at h
  obtain ⟨fields, hv, h⟩ := bind_eq_ok.mp h
  obtain ⟨_, _, h⟩ := bind_eq_ok.mp h
  obtain ⟨role, hr, h⟩ := bind_eq_ok.mp h
  obtain ⟨name, hn, h⟩ := bind_eq_ok.mp h
  obtain ⟨purpose, hp, h⟩ := bind_eq_ok.mp h
  cases h
  have hback : ReadsBack nonEmptyString .str := Exact.readsBack fun h => nonEmptyString_eq_ok h
  have hr' := optionalOf_readsBack hback nofun hr
  have hn' := optionalOf_readsBack hback nofun hn
  rw [nonEmptyString_eq_ok hp] at hp
  have hkeys : exactKeys (("purpose", .str purpose) ::
      JsValue.optional "role" (role.map .str) ++ JsValue.optional "name" (name.map .str))
      ["role", "name", "purpose"] = .ok () := by
    cases role <;> cases name <;> rfl
  refine bind_eq_ok.mpr ⟨_, rfl, bind_eq_ok.mpr ⟨(), hkeys, ?_⟩⟩
  simp only [List.cons_append, JsValue.field_self, JsValue.field_of_ne,
    JsValue.field_optional_self, JsValue.field_optional_of_ne, JsValue.field_optional_only,
    JsValue.field_optional_only_of_ne, ne_eq, String.reduceEq, not_false_eq_true, hr', hn', hp,
    bind, Except.bind]

theorem optionalOf_eq_some {α : Type} {f : JsValue → Parse α} {a : α} (hne : v ≠ .undefined)
    (h : f v = .ok a) : optionalOf f v = .ok (some a) := by
  unfold optionalOf
  split
  · next hu => exact absurd rfl hne
  · rw [h]
    rfl

/-- The properties of a step beside its index. -/
def kindFields : ExecutionPlanStep → List (String × JsValue)
  | .navigate _ path => [("kind", .str "navigate"), ("path", .str path)]
  | .click _ target => [("kind", .str "click"), ("target", target.toValue)]
  | .input _ target valueRef =>
    [("kind", .str "input"), ("target", target.toValue), ("valueRef", .str valueRef)]
  | .select _ target valueRef =>
    [("kind", .str "select"), ("target", target.toValue), ("valueRef", .str valueRef)]
  | .scroll _ target direction amount =>
    ("kind", .str "scroll") :: (JsValue.optional "target" (target.map (·.toValue)) ++
      [("direction", enumText directions direction), ("amount", enumText amounts amount)])
  | .verify _ claimIds =>
    [("kind", .str "verify"), ("claimIds", AppTarget.strings claimIds.toList)]

theorem toValue_step (step : ExecutionPlanStep) :
    step.toValue = .obj (JsValue.optional "stepIndex"
      (step.stepIndex.map fun n : ℕ => JsValue.int n) ++ kindFields step) := by
  cases step with
  | navigate index path => cases index <;> rfl
  | click index target => cases index <;> rfl
  | input index target valueRef => cases index <;> rfl
  | select index target valueRef => rfl
  | scroll index target direction amount => rfl
  | verify index claimIds => cases index <;> rfl

theorem nonNegativeSafeInteger_readsBack :
    ReadsBack nonNegativeSafeInteger (fun n => .int n) :=
  Exact.readsBack fun h => eq_of_nonNegativeSafeInteger h

theorem parseExecutionPlanStep_readsBack :
    ReadsBack parseExecutionPlanStep ExecutionPlanStep.toValue := by
  intro v step h
  unfold parseExecutionPlanStep at h
  obtain ⟨fields, hv, h⟩ := bind_eq_ok.mp h
  obtain ⟨index, hi, h⟩ := bind_eq_ok.mp h
  have hi' := optionalOf_readsBack nonNegativeSafeInteger_readsBack nofun hi
  -- a step with an index always has it under its key
  have hsome : ∀ i, nonNegativeSafeInteger (JsValue.field "stepIndex" fields) = .ok i →
      optionalOf nonNegativeSafeInteger (.int i) = .ok (some i) := fun i hn =>
    optionalOf_eq_some nofun (nonNegativeSafeInteger_readsBack hn)
  rw [toValue_step]
  split at h
  · obtain ⟨_, _, h⟩ := bind_eq_ok.mp h
    obtain ⟨path, hp, h⟩ := bind_eq_ok.mp h
    cases h
    rw [nonEmptyString_eq_ok hp] at hp
    refine bind_eq_ok.mpr ⟨_, rfl, bind_eq_ok.mpr ⟨index, ?_, ?_⟩⟩
    · rw [JsValue.field_optional_self]
      exact hi'
    rw [JsValue.field_optional_of_ne (by decide), kindFields, JsValue.field_self]
    refine bind_eq_ok.mpr ⟨(), by cases index <;> rfl, ?_⟩
    rw [JsValue.field_optional_of_ne (by decide), JsValue.field_of_ne (by decide),
      JsValue.field_self, hp]
    rfl
  · obtain ⟨_, _, h⟩ := bind_eq_ok.mp h
    obtain ⟨target, ht, h⟩ := bind_eq_ok.mp h
    cases h
    refine bind_eq_ok.mpr ⟨_, rfl, bind_eq_ok.mpr ⟨index, ?_, ?_⟩⟩
    · rw [JsValue.field_optional_self]
      exact hi'
    rw [JsValue.field_optional_of_ne (by decide), kindFields, JsValue.field_self]
    refine bind_eq_ok.mpr ⟨(), by cases index <;> rfl, ?_⟩
    rw [JsValue.field_optional_of_ne (by decide), JsValue.field_of_ne (by decide),
      JsValue.field_self, parseExecutionPlanTarget_readsBack ht]
    rfl
  · obtain ⟨_, _, h⟩ := bind_eq_ok.mp h
    obtain ⟨target, ht, h⟩ := bind_eq_ok.mp h
    obtain ⟨valueRef, hr, h⟩ := bind_eq_ok.mp h
    cases h
    rw [nonEmptyString_eq_ok hr] at hr
    refine bind_eq_ok.mpr ⟨_, rfl, bind_eq_ok.mpr ⟨index, ?_, ?_⟩⟩
    · rw [JsValue.field_optional_self]
      exact hi'
    rw [JsValue.field_optional_of_ne (by decide), kindFields, JsValue.field_self]
    refine bind_eq_ok.mpr ⟨(), by cases index <;> rfl, ?_⟩
    simp only [JsValue.field_optional_of_ne, JsValue.field_of_ne, JsValue.field_self, ne_eq,
      String.reduceEq, not_false_eq_true, parseExecutionPlanTarget_readsBack ht, hr]
    rfl
  · obtain ⟨_, _, h⟩ := bind_eq_ok.mp h
    obtain ⟨i, hn, h⟩ := bind_eq_ok.mp h
    obtain ⟨target, ht, h⟩ := bind_eq_ok.mp h
    obtain ⟨valueRef, hr, h⟩ := bind_eq_ok.mp h
    cases h
    rw [nonEmptyString_eq_ok hr] at hr
    refine bind_eq_ok.mpr ⟨_, rfl, bind_eq_ok.mpr ⟨some i, hsome i hn, ?_⟩⟩
    rw [JsValue.field_optional_of_ne (by decide), kindFields, JsValue.field_self]
    refine bind_eq_ok.mpr ⟨(), rfl, bind_eq_ok.mpr
      ⟨i, nonNegativeSafeInteger_readsBack hn, ?_⟩⟩
    simp only [JsValue.field_optional_of_ne, JsValue.field_of_ne, JsValue.field_self, ne_eq,
      String.reduceEq, not_false_eq_true, parseExecutionPlanTarget_readsBack ht, hr]
    rfl
  · obtain ⟨_, _, h⟩ := bind_eq_ok.mp h
    obtain ⟨target, ht, h⟩ := bind_eq_ok.mp h
    obtain ⟨i, hn, h⟩ := bind_eq_ok.mp h
    obtain ⟨direction, hd, h⟩ := bind_eq_ok.mp h
    obtain ⟨amount, ha, h⟩ := bind_eq_ok.mp h
    cases h
    have ht' := optionalOf_readsBack parseExecutionPlanTarget_readsBack nofun ht
    rw [eq_of_enumValue (by decide) hd] at hd
    rw [eq_of_enumValue (by decide) ha] at ha
    refine bind_eq_ok.mpr ⟨_, rfl, bind_eq_ok.mpr ⟨some i, hsome i hn, ?_⟩⟩
    rw [JsValue.field_optional_of_ne (by decide), kindFields, JsValue.field_self]
    refine bind_eq_ok.mpr ⟨(), by cases target <;> rfl, bind_eq_ok.mpr ⟨target, ?_, ?_⟩⟩
    · rw [JsValue.field_optional_of_ne (by decide), JsValue.field_of_ne (by decide),
        JsValue.field_optional_self, JsValue.field_of_ne (by decide),
        JsValue.field_of_ne (by decide)]
      exact ht'
    refine bind_eq_ok.mpr ⟨i, nonNegativeSafeInteger_readsBack hn, ?_⟩
    simp only [JsValue.field_optional_of_ne, JsValue.field_of_ne, JsValue.field_self, ne_eq,
      String.reduceEq, not_false_eq_true, hd, ha]
    rfl
  · obtain ⟨_, _, h⟩ := bind_eq_ok.mp h
    obtain ⟨claimIds, hc, h⟩ := bind_eq_ok.mp h
    cases h
    rw [eq_of_stringTuple hc] at hc
    refine bind_eq_ok.mpr ⟨_, rfl, bind_eq_ok.mpr ⟨index, ?_, ?_⟩⟩
    · rw [JsValue.field_optional_self]
      exact hi'
    rw [JsValue.field_optional_of_ne (by decide), kindFields, JsValue.field_self]
    refine bind_eq_ok.mpr ⟨(), by cases index <;> rfl, ?_⟩
    rw [JsValue.field_optional_of_ne (by decide), JsValue.field_of_ne (by decide),
      JsValue.field_self, hc]
    rfl
  · cases h

/-- The object of a budget. -/
def budgetFields (b : ExecutionPlanBudget) : List (String × JsValue) :=
  [("maximumStepsPerJob", .int b.maximumStepsPerJob),
    ("maximumWallClockMs", .int b.maximumWallClockMs),
    ("maximumModelTokens", .int b.maximumModelTokens)]

/-- What a parsed plan satisfies. -/
structure PlanAccepted (p : ExecutionJobPlanSnapshot) : Prop where
  missionId : nonEmptyString (.str p.missionId) = .ok p.missionId
  missionRevision : positiveSafeInteger (.int p.missionRevision) = .ok p.missionRevision
  testCaseId : nonEmptyString (.str p.testCaseId) = .ok p.testCaseId
  steps : (p.steps.toList.map (·.toValue)).mapM parseExecutionPlanStep = .ok p.steps.toList
  indices : validateStepIndices p.steps.toList = .ok ()
  claims : stringTuple (AppTarget.strings p.expectedClaimIds.toList) = .ok p.expectedClaimIds
  maximumStepsPerJob :
    positiveSafeInteger (.int p.budget.maximumStepsPerJob) = .ok p.budget.maximumStepsPerJob
  fits : p.steps.toList.length ≤ p.budget.maximumStepsPerJob
  maximumWallClockMs :
    positiveSafeInteger (.int p.budget.maximumWallClockMs) = .ok p.budget.maximumWallClockMs
  maximumModelTokens :
    positiveSafeInteger (.int p.budget.maximumModelTokens) = .ok p.budget.maximumModelTokens

theorem planAccepted_of_parse {p : ExecutionJobPlanSnapshot}
    (h : parseExecutionJobPlanSnapshot v = .ok p) : PlanAccepted p := by
  unfold parseExecutionJobPlanSnapshot at h
  obtain ⟨fields, hv, h⟩ := bind_eq_ok.mp h
  obtain ⟨_, _, h⟩ := bind_eq_ok.mp h
  obtain ⟨values, hvs, h⟩ := bind_eq_ok.mp h
  obtain ⟨steps, hs, h⟩ := bind_eq_ok.mp h
  obtain ⟨_, hindices, h⟩ := bind_eq_ok.mp h
  obtain ⟨claims, hclaims, h⟩ := bind_eq_ok.mp h
  obtain ⟨budget, hb, h⟩ := bind_eq_ok.mp h
  obtain ⟨_, _, h⟩ := bind_eq_ok.mp h
  obtain ⟨maximumSteps, hms, h⟩ := bind_eq_ok.mp h
  split at h
  · cases h
  next hfits =>
  obtain ⟨missionId, hm, h⟩ := bind_eq_ok.mp h
  obtain ⟨missionRevision, hr, h⟩ := bind_eq_ok.mp h
  obtain ⟨testCaseId, ht, h⟩ := bind_eq_ok.mp h
  obtain ⟨wallClock, hw, h⟩ := bind_eq_ok.mp h
  obtain ⟨modelTokens, hmt, h⟩ := bind_eq_ok.mp h
  cases h
  rw [nonEmptyString_eq_ok hm] at hm
  rw [eq_of_positiveSafeInteger hr] at hr
  rw [nonEmptyString_eq_ok ht] at ht
  rw [eq_of_stringTuple hclaims] at hclaims
  rw [eq_of_positiveSafeInteger hms] at hms
  rw [eq_of_positiveSafeInteger hw] at hw
  rw [eq_of_positiveSafeInteger hmt] at hmt
  exact ⟨hm, hr, ht, parseExecutionPlanStep_readsBack.mapM (mapTuple_eq_ok.mp hs), hindices,
    hclaims, hms, Nat.not_lt.mp hfits, hw, hmt⟩

theorem parse_of_planAccepted {p : ExecutionJobPlanSnapshot} (h : PlanAccepted p) :
    parseExecutionJobPlanSnapshot p.toValue = .ok p := by
  have htuple : mapTuple parseExecutionPlanStep
      ⟨p.steps.first.toValue, p.steps.rest.map (·.toValue)⟩ = .ok p.steps :=
    mapTuple_eq_ok.mpr h.steps
  unfold parseExecutionJobPlanSnapshot ExecutionJobPlanSnapshot.toValue
  refine bind_eq_ok.mpr ⟨_, rfl, bind_eq_ok.mpr ⟨(), rfl, bind_eq_ok.mpr
    ⟨⟨p.steps.first.toValue, p.steps.rest.map (·.toValue)⟩, ?_, ?_⟩⟩⟩
  · simp only [JsValue.field_self, JsValue.field_of_ne, ne_eq, String.reduceEq,
      not_false_eq_true]
    rfl
  refine bind_eq_ok.mpr ⟨p.steps, htuple, bind_eq_ok.mpr ⟨(), h.indices, bind_eq_ok.mpr
    ⟨p.expectedClaimIds, ?_, bind_eq_ok.mpr ⟨budgetFields p.budget, ?_, bind_eq_ok.mpr
      ⟨(), rfl, bind_eq_ok.mpr ⟨p.budget.maximumStepsPerJob, h.maximumStepsPerJob, ?_⟩⟩⟩⟩⟩⟩
  · simp only [JsValue.field_self, JsValue.field_of_ne, ne_eq, String.reduceEq,
      not_false_eq_true, h.claims]
  · simp only [JsValue.field_self, JsValue.field_of_ne, ne_eq, String.reduceEq,
      not_false_eq_true]
    rfl
  rw [if_neg (Nat.not_lt.mpr h.fits)]
  unfold budgetFields
  simp only [JsValue.field_self, JsValue.field_of_ne, ne_eq, String.reduceEq,
    not_false_eq_true, h.missionId, h.missionRevision, h.testCaseId, h.maximumWallClockMs,
    h.maximumModelTokens, bind, Except.bind]

theorem parseExecutionJobPlanSnapshot_readsBack :
    ReadsBack parseExecutionJobPlanSnapshot ExecutionJobPlanSnapshot.toValue :=
  fun h => parse_of_planAccepted (planAccepted_of_parse h)

end Job

/-- What a parsed job satisfies. -/
structure JobAccepted (P : Platform) (job : AcceptedExecutionJob) : Prop where
  jobId : Job.nonEmptyString (.str job.jobId) = .ok job.jobId
  runId : Job.nonEmptyString (.str job.runId) = .ok job.runId
  projectId : Job.nonEmptyString (.str job.projectId) = .ok job.projectId
  target : Job.parseTargetRef P job.target.toValue = .ok job.target
  objective : Job.nonEmptyString (.str job.objective) = .ok job.objective
  policy : Job.parseExecutionPolicySnapshot P job.policy.toValue = .ok job.policy
  plan : ∀ p ∈ job.plan, Job.PlanAccepted p
  allowed : ∀ p ∈ job.plan, ∀ step ∈ p.steps.toList, Job.isForbidden job.policy step = false

section Accepted

variable {P : Platform} {job : AcceptedExecutionJob}

theorem jobAccepted_of_parse {v : JsValue} (h : parseExecutionJob P v = .ok job) :
    JobAccepted P job := by
  unfold parseExecutionJob at h
  obtain ⟨raw, hv, h⟩ := bind_eq_ok.mp h
  obtain ⟨jobId, hj, h⟩ := bind_eq_ok.mp h
  obtain ⟨runId, hr, h⟩ := bind_eq_ok.mp h
  obtain ⟨projectId, hp, h⟩ := bind_eq_ok.mp h
  obtain ⟨target, ht, h⟩ := bind_eq_ok.mp h
  obtain ⟨objective, ho, h⟩ := bind_eq_ok.mp h
  obtain ⟨policy, hpol, h⟩ := bind_eq_ok.mp h
  obtain ⟨plan, hplan, h⟩ := bind_eq_ok.mp h
  split at h
  · cases h
  next hallowed =>
  cases h
  rw [Job.nonEmptyString_eq_ok hj] at hj
  rw [Job.nonEmptyString_eq_ok hr] at hr
  rw [Job.nonEmptyString_eq_ok hp] at hp
  rw [Job.nonEmptyString_eq_ok ho] at ho
  refine ⟨hj, hr, hp, Job.parseTargetRef_readsBack ht, ho,
    Job.parseExecutionPolicySnapshot_readsBack hpol, ?_, ?_⟩
  · rintro p ⟨⟩
    unfold Job.optionalOf at hplan
    split at hplan
    · cases hplan
    · obtain ⟨p', hp', hplan⟩ := bind_eq_ok.mp hplan
      cases hplan
      exact Job.planAccepted_of_parse hp'
  · rintro p ⟨⟩ step hstep
    simpa using fun hf => hallowed (List.any_eq_true.mpr ⟨step, hstep, hf⟩)

theorem parse_of_jobAccepted (h : JobAccepted P job) :
    parseExecutionJob P job.toValue = .ok job := by
  have hplan : Job.optionalOf Job.parseExecutionJobPlanSnapshot
      ((job.plan.map (·.toValue)).getD .undefined) = .ok job.plan := by
    cases hp : job.plan with
    | none => rfl
    | some p =>
      exact Job.optionalOf_eq_some nofun (Job.parse_of_planAccepted (h.plan p hp))
  have hallowed : (job.plan.any fun p => p.steps.toList.any (Job.isForbidden job.policy)) =
      false := by
    cases hp : job.plan with
    | none => rfl
    | some p => exact List.any_eq_false.mpr fun step hs => by simp [h.allowed p hp step hs]
  unfold parseExecutionJob AcceptedExecutionJob.toValue
  simp only [Job.record, List.cons_append, List.nil_append, JsValue.field_self,
    JsValue.field_of_ne, JsValue.field_optional_only, ne_eq, String.reduceEq, not_false_eq_true,
    h.jobId, h.runId, h.projectId, h.target, h.objective, h.policy, hplan, hallowed, bind,
    Except.bind, Bool.false_eq_true, if_false]

/-- A parsed job is read back from the object it is written as. -/
theorem parseExecutionJob_readsBack :
    ReadsBack (parseExecutionJob P) AcceptedExecutionJob.toValue :=
  fun h => parse_of_jobAccepted (jobAccepted_of_parse h)

end Accepted

end Qualigence.Protocol
