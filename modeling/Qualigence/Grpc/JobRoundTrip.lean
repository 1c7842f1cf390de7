import Mathlib.Algebra.Group.Nat.Defs
import Qualigence.Grpc.JobWire
import Qualigence.Protocol.ReadBack
import Qualigence.Runner.Runtime

/-! # Jobs and completions survive the wire

The wire carries the revision of a mission, the maximum of steps and the index of a step
in 32 bits. A job that is accepted arrives as it was sent exactly when its plan fits, and
a completion does unless it is blocked with an empty error code.
-/

namespace Qualigence.Grpc

open Foundation Protocol Protobuf

/-! ## What the wire makes of numbers -/

def truncate (n : ℕ) : ℕ := n % 2 ^ 32

def truncateStep : ExecutionPlanStep → ExecutionPlanStep
  | .navigate index path => .navigate (index.map truncate) path
  | .click index target => .click (index.map truncate) target
  | .input index target valueRef => .input (index.map truncate) target valueRef
  | .select index target valueRef => .select (truncate index) target valueRef
  | .scroll index target direction amount => .scroll (truncate index) target direction amount
  | .verify index claimIds => .verify (index.map truncate) claimIds

def truncatePlan (plan : ExecutionJobPlanSnapshot) : ExecutionJobPlanSnapshot :=
  { plan with
    missionRevision := truncate plan.missionRevision
    steps := ⟨truncateStep plan.steps.first, plan.steps.rest.map truncateStep⟩
    budget := { plan.budget with
      maximumStepsPerJob := truncate plan.budget.maximumStepsPerJob } }

def truncateJob (job : AcceptedExecutionJob) : AcceptedExecutionJob :=
  { job with plan := job.plan.map truncatePlan }

/-- The plan of a job, if it has one, fits the fields of the wire. -/
def FitsWire (job : AcceptedExecutionJob) : Prop :=
  ∀ plan ∈ job.plan, plan.missionRevision < 2 ^ 32 ∧ plan.budget.maximumStepsPerJob < 2 ^ 32

/-! ## Carried fields -/

section Carry

variable {type : WireType}

theorem carry_str (s : String) : (FieldType.singular string).carry (.str s) = some (.str s) := rfl

theorem carry_bool (b : Bool) : (FieldType.singular bool).carry (.bool b) = some (.bool b) := rfl

theorem carry_obj (fields : List (String × JsValue)) :
    (FieldType.singular type).carry (.obj fields) = some (type (.obj fields)) := rfl

theorem carry_uint32 (n : ℕ) :
    (FieldType.singular uint32).carry (.int n) = some (.int (truncate n)) := by
  change some (JsValue.int ((n : ℤ) % 2 ^ 32)) = _
  unfold truncate
  rw [Int.natCast_emod]
  rfl

theorem carry_uint64 {n : ℕ} (h : n < 2 ^ 64) :
    (FieldType.singular uint64).carry (.int n) = some (.int n) := by
  change some (JsValue.int ((n : ℤ) % 2 ^ 64)) = _
  rw [Int.emod_eq_of_lt (Int.natCast_nonneg n) (by exact_mod_cast h)]

theorem carry_optional (o : Option String) :
    (FieldType.singular string).carry ((o.map JsValue.str).getD .undefined) = o.map .str := by
  cases o <;> rfl

theorem carry_optional_uint32 (o : Option ℕ) :
    (FieldType.singular uint32).carry ((o.map fun n : ℕ => JsValue.int n).getD .undefined) =
      (o.map truncate).map fun n : ℕ => JsValue.int n := by
  cases o with
  | none => rfl
  | some n => exact carry_uint32 n

theorem carry_texts (xs : NonEmptyList String) :
    (FieldType.repeated string).carry (AppTarget.strings xs.toList) =
      some (AppTarget.strings xs.toList) := by
  change some (JsValue.arr (List.map id _)) = _
  rw [List.map_id]
  rfl

theorem carry_enum {α : Type} [DecidableEq α] {table : List (String × α)} {a : α} {s : String}
    (h : enumText table a = .str s) :
    (FieldType.singular string).carry (enumText table a) = some (enumText table a) := by
  rw [h]
  rfl

end Carry

/-! ## Plans -/

theorem unlessEmpty_optional (key : String) {o : Option String} (h : o ≠ some "") :
    unlessEmpty key (asString ((o.map JsValue.str).getD .undefined)) =
      JsValue.optional key (o.map .str) := by
  cases o with
  | none => rfl
  | some s => exact if_neg fun he => h (congrArg some he)

/-- The texts of a target that a parsed step has are not empty. -/
structure TargetNamed (t : ExecutionPlanTarget) : Prop where
  role : t.role ≠ some ""
  name : t.name ≠ some ""

theorem targetNamed_of_parse {v : JsValue} {t : ExecutionPlanTarget}
    (h : Job.parseExecutionPlanTarget v = .ok t) : TargetNamed t := by
  unfold Job.parseExecutionPlanTarget at h
  obtain ⟨fields, hv, h⟩ := bind_eq_ok.mp h
  obtain ⟨_, _, h⟩ := bind_eq_ok.mp h
  obtain ⟨role, hr, h⟩ := bind_eq_ok.mp h
  obtain ⟨name, hn, h⟩ := bind_eq_ok.mp h
  obtain ⟨purpose, hp, h⟩ := bind_eq_ok.mp h
  cases h
  have hne : ∀ {w : JsValue} {o : Option String},
      Job.optionalOf Job.nonEmptyString w = .ok o → o ≠ some "" := by
    rintro w o ho rfl
    unfold Job.optionalOf at ho
    split at ho
    · cases ho
    · obtain ⟨s, hs, ho⟩ := bind_eq_ok.mp ho
      cases ho
      rw [Job.nonEmptyString_eq_ok hs] at hs
      cases hs
  exact ⟨hne hr, hne hn⟩

theorem planTarget_carried {t : ExecutionPlanTarget} (h : TargetNamed t) :
    planTargetFromWire (Schema.executionPlanTarget (planTargetToWire t)) = .ok t.toValue := by
  have hcarried : Schema.executionPlanTarget (planTargetToWire t) =
      .obj (JsValue.optional "role" (t.role.map .str) ++
        (JsValue.optional "name" (t.name.map .str) ++ [("purpose", .str t.purpose)])) := by
    simp only [Schema.executionPlanTarget, Schema.text, planTargetToWire, message, carryFields,
      List.flatMap_cons, List.flatMap_nil, List.append_nil, List.cons_append, JsValue.field_self,
      JsValue.field_of_ne, JsValue.field_optional_self, JsValue.field_optional_of_ne,
      JsValue.field_optional_only, JsValue.field_optional_only_of_ne, ne_eq, String.reduceEq,
      not_false_eq_true, carry_optional, carry_str]
    rfl
  rw [hcarried]
  refine bind_eq_ok.mpr ⟨_, rfl, ?_⟩
  simp only [JsValue.field_self, JsValue.field_of_ne, JsValue.field_optional_self,
    JsValue.field_optional_of_ne, JsValue.field_nil, ne_eq, String.reduceEq, not_false_eq_true,
    unlessEmpty_optional _ h.role, unlessEmpty_optional _ h.name]
  rfl

/-- The object of a target is carried as a whole. -/
theorem carry_planTarget (t : ExecutionPlanTarget) :
    (FieldType.singular Schema.executionPlanTarget).carry (planTargetToWire t) =
      some (Schema.executionPlanTarget (planTargetToWire t)) := rfl

/-- The properties of a step on the wire beside its index. -/
def wireKind : ExecutionPlanStep → String × JsValue
  | .navigate _ path => ("navigate", .obj [("path", .str path)])
  | .click _ target => ("click", .obj [("target", planTargetToWire target)])
  | .input _ target valueRef =>
    ("input", .obj [("target", planTargetToWire target), ("value_ref", .str valueRef)])
  | .select _ target valueRef =>
    ("select", .obj [("target", planTargetToWire target), ("value_ref", .str valueRef)])
  | .scroll _ target direction amount =>
    ("scroll", .obj (JsValue.optional "target" (target.map planTargetToWire) ++
      [("direction", enumText Job.directions direction),
        ("amount", enumText Job.amounts amount)]))
  | .verify _ claimIds => ("verify", .obj [("claim_ids", AppTarget.strings claimIds.toList)])

theorem planStepToWire_eq (step : ExecutionPlanStep) :
    planStepToWire step = .obj (JsValue.optional "step_index"
      (step.stepIndex.map fun n : ℕ => JsValue.int n) ++ [wireKind step]) := by
  cases step with
  | navigate index path => cases index <;> rfl
  | click index target => cases index <;> rfl
  | input index target valueRef => cases index <;> rfl
  | select index target valueRef => rfl
  | scroll index target direction amount => rfl
  | verify index claimIds => cases index <;> rfl

/-- A step on the wire keeps its index within 32 bits and the member of its kind. -/
theorem executionPlanStep_eq (type : WireType) {o : Option ℕ} {kind : String}
    {fields : List (String × JsValue)} (hk : (kind, .singular type) ∈ Schema.stepMembers) :
    Schema.executionPlanStep (.obj (JsValue.optional "step_index"
      (o.map fun n : ℕ => JsValue.int n) ++ [(kind, .obj fields)])) =
    .obj (JsValue.optional "step_index" ((o.map truncate).map fun n : ℕ => JsValue.int n) ++
      [(kind, type (.obj fields)), ("step", .str kind)]) := by
  have hindex : ∀ g ∈ Schema.stepMembers, "step_index" ≠ g.1 := by
    intro g hg he
    have hmem : "step_index" ∈ Schema.stepMembers.map (·.1) := he ▸ List.mem_map_of_mem hg
    exact absurd hmem (by decide)
  have hfield : JsValue.field kind (JsValue.optional "step_index"
      (o.map fun n : ℕ => JsValue.int n) ++ [(kind, .obj fields)]) = .obj fields := by
    rw [JsValue.field_optional_of_ne (hindex _ hk), JsValue.field_self]
  have hsel := selected_eq hk (by decide) (by rw [hfield]; rfl) (by
      intro g hg hne
      rw [JsValue.field_optional_of_ne (hindex g hg), JsValue.field_of_ne hne.symm]
      rfl)
  have hcarry : (FieldType.singular type).carry (JsValue.field kind (JsValue.optional "step_index"
      (o.map fun n : ℕ => JsValue.int n) ++ [(kind, .obj fields)])) =
      some (type (.obj fields)) := by
    rw [hfield]
    rfl
  unfold Schema.executionPlanStep
  rw [messageOneof_eq hsel hcarry]
  unfold carryFields
  rw [List.flatMap_singleton, JsValue.field_optional_self,
    JsValue.field_of_ne (hindex _ hk).symm, JsValue.field_nil, carry_optional_uint32]

theorem isAbsent_obj (fields : List (String × JsValue)) : isAbsent (.obj fields) = false := rfl

theorem isAbsent_undefined : isAbsent .undefined = true := rfl

/-- The index of a step as it is read. -/
theorem indexed_eq (o : Option ℕ) :
    (if isAbsent ((o.map fun n : ℕ => JsValue.int n).getD .undefined) then []
      else [("stepIndex", asNumber ((o.map fun n : ℕ => JsValue.int n).getD .undefined))]) =
    JsValue.optional "stepIndex" (o.map fun n : ℕ => JsValue.int n) := by
  cases o <;> rfl

theorem navigate_carried (index : Option ℕ) (path : String) :
    planStepFromWire (Schema.executionPlanStep (planStepToWire (.navigate index path))) =
      .ok (truncateStep (.navigate index path)).toValue := by
  have hcarried : Schema.executionPlanNavigate (.obj [("path", .str path)]) =
      .obj [("path", .str path)] := by
    simp only [Schema.executionPlanNavigate, Schema.text, message, carryFields,
      List.flatMap_cons, List.flatMap_nil, List.append_nil, JsValue.field_self, carry_str]
    rfl
  rw [planStepToWire_eq, Job.toValue_step, wireKind,
    executionPlanStep_eq Schema.executionPlanNavigate (by simp [Schema.stepMembers]), hcarried]
  refine bind_eq_ok.mpr ⟨_, rfl, ?_⟩
  simp only [JsValue.field_self, JsValue.field_of_ne, JsValue.field_optional_self,
    JsValue.field_optional_of_ne, JsValue.field_nil, ne_eq, String.reduceEq, not_false_eq_true,
    isAbsent_obj, Bool.not_false, if_true, indexed_eq]
  rfl

theorem click_carried (index : Option ℕ) {target : ExecutionPlanTarget} (h : TargetNamed target) :
    planStepFromWire (Schema.executionPlanStep (planStepToWire (.click index target))) =
      .ok (truncateStep (.click index target)).toValue := by
  have hcarried : Schema.executionPlanClick (.obj [("target", planTargetToWire target)]) =
      .obj [("target", Schema.executionPlanTarget (planTargetToWire target))] := by
    simp only [Schema.executionPlanClick, message, carryFields, List.flatMap_cons,
      List.flatMap_nil, List.append_nil, JsValue.field_self, carry_planTarget]
    rfl
  rw [planStepToWire_eq, Job.toValue_step, wireKind,
    executionPlanStep_eq Schema.executionPlanClick (by simp [Schema.stepMembers]), hcarried]
  refine bind_eq_ok.mpr ⟨_, rfl, ?_⟩
  simp only [JsValue.field_self, JsValue.field_of_ne, JsValue.field_optional_self,
    JsValue.field_optional_of_ne, JsValue.field_nil, ne_eq, String.reduceEq, not_false_eq_true,
    isAbsent_obj, isAbsent_undefined, Bool.not_false, Bool.not_true, Bool.false_eq_true, if_true,
    if_false, indexed_eq, properties, planTarget_carried h, bind, Except.bind]
  rfl

theorem input_carried (index : Option ℕ) {target : ExecutionPlanTarget} (h : TargetNamed target)
    (valueRef : String) :
    planStepFromWire (Schema.executionPlanStep (planStepToWire (.input index target valueRef))) =
      .ok (truncateStep (.input index target valueRef)).toValue := by
  have hcarried : Schema.executionPlanInput
      (.obj [("target", planTargetToWire target), ("value_ref", .str valueRef)]) =
      .obj [("target", Schema.executionPlanTarget (planTargetToWire target)),
        ("value_ref", .str valueRef)] := by
    simp only [Schema.executionPlanInput, Schema.text, message, carryFields, List.flatMap_cons,
      List.flatMap_nil, List.append_nil, JsValue.field_self, JsValue.field_of_ne, ne_eq,
      String.reduceEq, not_false_eq_true, carry_planTarget, carry_str]
    rfl
  rw [planStepToWire_eq, Job.toValue_step, wireKind,
    executionPlanStep_eq Schema.executionPlanInput (by simp [Schema.stepMembers]), hcarried]
  refine bind_eq_ok.mpr ⟨_, rfl, ?_⟩
  simp only [JsValue.field_self, JsValue.field_of_ne, JsValue.field_optional_self,
    JsValue.field_optional_of_ne, JsValue.field_nil, ne_eq, String.reduceEq, not_false_eq_true,
    isAbsent_obj, isAbsent_undefined, Bool.not_false, Bool.not_true, Bool.false_eq_true, if_true,
    if_false, indexed_eq, properties, planTarget_carried h, bind, Except.bind]
  rfl

theorem isAbsent_int (n : ℤ) : isAbsent (.int n) = false := rfl

theorem select_carried (index : ℕ) {target : ExecutionPlanTarget} (h : TargetNamed target)
    (valueRef : String) :
    planStepFromWire (Schema.executionPlanStep (planStepToWire (.select index target valueRef))) =
      .ok (truncateStep (.select index target valueRef)).toValue := by
  have hcarried : Schema.executionPlanSelect
      (.obj [("target", planTargetToWire target), ("value_ref", .str valueRef)]) =
      .obj [("target", Schema.executionPlanTarget (planTargetToWire target)),
        ("value_ref", .str valueRef)] := by
    simp only [Schema.executionPlanSelect, Schema.text, message, carryFields, List.flatMap_cons,
      List.flatMap_nil, List.append_nil, JsValue.field_self, JsValue.field_of_ne, ne_eq,
      String.reduceEq, not_false_eq_true, carry_planTarget, carry_str]
    rfl
  rw [planStepToWire_eq, Job.toValue_step, wireKind,
    executionPlanStep_eq Schema.executionPlanSelect (by simp [Schema.stepMembers]), hcarried]
  refine bind_eq_ok.mpr ⟨_, rfl, ?_⟩
  simp only [JsValue.field_self, JsValue.field_of_ne, JsValue.field_optional_self,
    JsValue.field_optional_of_ne, JsValue.field_nil, ne_eq, String.reduceEq, not_false_eq_true,
    isAbsent_obj, isAbsent_undefined, Bool.not_false, Bool.not_true, Bool.false_eq_true, if_true,
    if_false, properties, planTarget_carried h, bind, Except.bind, ExecutionPlanStep.stepIndex,
    Option.map_some, Option.getD_some, isAbsent_int]
  rfl

theorem carry_optional_planTarget (o : Option ExecutionPlanTarget) :
    (FieldType.singular Schema.executionPlanTarget).carry
      ((o.map planTargetToWire).getD .undefined) =
      o.map fun t => Schema.executionPlanTarget (planTargetToWire t) := by
  cases o <;> rfl

theorem enumText_direction (d : ScrollDirection) :
    ∃ s, enumText Job.directions d = .str s := by
  cases d <;> exact ⟨_, rfl⟩

theorem enumText_amount (a : ScrollAmount) : ∃ s, enumText Job.amounts a = .str s := by
  cases a <;> exact ⟨_, rfl⟩

theorem scroll_carried (index : ℕ) {target : Option ExecutionPlanTarget}
    (h : ∀ t ∈ target, TargetNamed t) (direction : ScrollDirection) (amount : ScrollAmount) :
    planStepFromWire
      (Schema.executionPlanStep (planStepToWire (.scroll index target direction amount))) =
      .ok (truncateStep (.scroll index target direction amount)).toValue := by
  obtain ⟨d, hd⟩ := enumText_direction direction
  obtain ⟨a, ha⟩ := enumText_amount amount
  have hcarried : Schema.executionPlanScroll
      (.obj (JsValue.optional "target" (target.map planTargetToWire) ++
        [("direction", .str d), ("amount", .str a)])) =
      .obj (JsValue.optional "target"
        (target.map fun t => Schema.executionPlanTarget (planTargetToWire t)) ++
        [("direction", .str d), ("amount", .str a)]) := by
    simp only [Schema.executionPlanScroll, Schema.text, message, carryFields, List.flatMap_cons,
      List.flatMap_nil, List.append_nil, JsValue.field_self, JsValue.field_of_ne,
      JsValue.field_optional_self, JsValue.field_optional_of_ne, JsValue.field_nil, ne_eq,
      String.reduceEq, not_false_eq_true, carry_optional_planTarget, carry_str]
    rfl
  rw [planStepToWire_eq, Job.toValue_step, wireKind, hd, ha,
    executionPlanStep_eq Schema.executionPlanScroll (by simp [Schema.stepMembers]), hcarried]
  refine bind_eq_ok.mpr ⟨_, rfl, ?_⟩
  simp only [JsValue.field_self, JsValue.field_of_ne, JsValue.field_optional_self,
    JsValue.field_optional_of_ne, JsValue.field_nil, ne_eq, String.reduceEq, not_false_eq_true,
    isAbsent_obj, isAbsent_undefined, Bool.not_false, Bool.not_true, Bool.false_eq_true, if_true,
    if_false, properties, bind, Except.bind, ExecutionPlanStep.stepIndex,
    Option.map_some, Option.getD_some, isAbsent_int, truncateStep, Job.kindFields, hd, ha]
  cases target with
  | none => rfl
  | some t =>
    have ht := planTarget_carried (h t rfl)
    have hpresent : isAbsent (Schema.executionPlanTarget (planTargetToWire t)) = false := rfl
    simp only [Option.map_some, Option.getD_some, hpresent, Bool.false_eq_true, if_false, ht]
    rfl

theorem verify_carried (index : Option ℕ) (claimIds : NonEmptyList String) :
    planStepFromWire (Schema.executionPlanStep (planStepToWire (.verify index claimIds))) =
      .ok (truncateStep (.verify index claimIds)).toValue := by
  have hcarried : Schema.executionPlanVerify
      (.obj [("claim_ids", AppTarget.strings claimIds.toList)]) =
      .obj [("claim_ids", AppTarget.strings claimIds.toList)] := by
    simp only [Schema.executionPlanVerify, Schema.texts, message, carryFields,
      List.flatMap_cons, List.flatMap_nil, List.append_nil, JsValue.field_self, carry_texts]
    rfl
  rw [planStepToWire_eq, Job.toValue_step, wireKind,
    executionPlanStep_eq Schema.executionPlanVerify (by simp [Schema.stepMembers]), hcarried]
  refine bind_eq_ok.mpr ⟨_, rfl, ?_⟩
  simp only [JsValue.field_self, JsValue.field_of_ne, JsValue.field_optional_self,
    JsValue.field_optional_of_ne, JsValue.field_nil, ne_eq, String.reduceEq, not_false_eq_true,
    isAbsent_undefined, Bool.not_true, Bool.false_eq_true, if_false, indexed_eq, orEmpty,
    properties, bind, Except.bind]
  rfl

/-- The targets of a parsed step are named. -/
def StepNamed : ExecutionPlanStep → Prop
  | .click _ target | .input _ target _ | .select _ target _ => TargetNamed target
  | .scroll _ target _ _ => ∀ t ∈ target, TargetNamed t
  | .navigate _ _ | .verify _ _ => True

theorem stepNamed_of_parse {v : JsValue} {step : ExecutionPlanStep}
    (h : Job.parseExecutionPlanStep v = .ok step) : StepNamed step := by
  unfold Job.parseExecutionPlanStep at h
  obtain ⟨fields, hv, h⟩ := bind_eq_ok.mp h
  obtain ⟨index, hi, h⟩ := bind_eq_ok.mp h
  split at h
  · obtain ⟨_, _, h⟩ := bind_eq_ok.mp h
    obtain ⟨path, hp, h⟩ := bind_eq_ok.mp h
    cases h
    trivial
  · obtain ⟨_, _, h⟩ := bind_eq_ok.mp h
    obtain ⟨target, ht, h⟩ := bind_eq_ok.mp h
    cases h
    exact targetNamed_of_parse ht
  · obtain ⟨_, _, h⟩ := bind_eq_ok.mp h
    obtain ⟨target, ht, h⟩ := bind_eq_ok.mp h
    obtain ⟨valueRef, hr, h⟩ := bind_eq_ok.mp h
    cases h
    exact targetNamed_of_parse ht
  · obtain ⟨_, _, h⟩ := bind_eq_ok.mp h
    obtain ⟨i, hn, h⟩ := bind_eq_ok.mp h
    obtain ⟨target, ht, h⟩ := bind_eq_ok.mp h
    obtain ⟨valueRef, hr, h⟩ := bind_eq_ok.mp h
    cases h
    exact targetNamed_of_parse ht
  · obtain ⟨_, _, h⟩ := bind_eq_ok.mp h
    obtain ⟨target, ht, h⟩ := bind_eq_ok.mp h
    obtain ⟨i, hn, h⟩ := bind_eq_ok.mp h
    obtain ⟨direction, hd, h⟩ := bind_eq_ok.mp h
    obtain ⟨amount, ha, h⟩ := bind_eq_ok.mp h
    cases h
    rintro t ⟨⟩
    unfold Job.optionalOf at ht
    split at ht
    · cases ht
    · obtain ⟨t', ht', ht⟩ := bind_eq_ok.mp ht
      cases ht
      exact targetNamed_of_parse ht'
  · obtain ⟨_, _, h⟩ := bind_eq_ok.mp h
    obtain ⟨claimIds, hc, h⟩ := bind_eq_ok.mp h
    cases h
    trivial
  · cases h

theorem step_carried {step : ExecutionPlanStep} (h : StepNamed step) :
    planStepFromWire (Schema.executionPlanStep (planStepToWire step)) =
      .ok (truncateStep step).toValue := by
  cases step with
  | navigate index path => exact navigate_carried index path
  | click index target => exact click_carried index h
  | input index target valueRef => exact input_carried index h valueRef
  | select index target valueRef => exact select_carried index h valueRef
  | scroll index target direction amount => exact scroll_carried index h direction amount
  | verify index claimIds => exact verify_carried index claimIds

theorem steps_carried {steps : List ExecutionPlanStep} (h : ∀ step ∈ steps, StepNamed step) :
    (steps.map fun step => Schema.executionPlanStep (planStepToWire step)).mapM planStepFromWire =
      .ok ((steps.map truncateStep).map (·.toValue)) := by
  induction steps with
  | nil => rfl
  | cons step steps ih =>
    rw [List.map_cons, List.mapM_cons, step_carried (h step List.mem_cons_self),
      ih fun s hs => h s (List.mem_cons_of_mem _ hs)]
    rfl

theorem carry_steps (steps : NonEmptyList ExecutionPlanStep) :
    (FieldType.repeated Schema.executionPlanStep).carry
      (.arr (steps.toList.map planStepToWire)) =
      some (.arr (steps.toList.map fun step =>
        Schema.executionPlanStep (planStepToWire step))) := by
  change some (JsValue.arr ((steps.toList.map planStepToWire).map Schema.executionPlanStep)) = _
  rw [List.map_map]
  rfl

theorem lt_of_positiveSafeInteger {n m : ℕ} (h : Job.positiveSafeInteger (.int n) = .ok m) :
    n < 2 ^ 64 := by
  unfold Job.positiveSafeInteger Job.maxSafeInteger Job.malformed at h
  dsimp only at h
  split at h
  · omega
  · cases h

theorem plan_carried {p : ExecutionJobPlanSnapshot} (h : Job.PlanAccepted p)
    (hn : ∀ step ∈ p.steps.toList, StepNamed step) :
    planFromWire (Schema.executionJobPlanSnapshot (planToWire p)) =
      .ok (some (truncatePlan p).toValue) := by
  have hbudget : Schema.executionPlanBudget (.obj
      [("maximum_steps_per_job", .int p.budget.maximumStepsPerJob),
        ("maximum_wall_clock_ms", .int p.budget.maximumWallClockMs),
        ("maximum_model_tokens", .int p.budget.maximumModelTokens)]) =
      .obj [("maximum_steps_per_job", .int (truncate p.budget.maximumStepsPerJob)),
        ("maximum_wall_clock_ms", .int p.budget.maximumWallClockMs),
        ("maximum_model_tokens", .int p.budget.maximumModelTokens)] := by
    simp only [Schema.executionPlanBudget, message, carryFields, List.flatMap_cons,
      List.flatMap_nil, List.append_nil, JsValue.field_self, JsValue.field_of_ne, ne_eq,
      String.reduceEq, not_false_eq_true, carry_uint32,
      carry_uint64 (lt_of_positiveSafeInteger h.maximumWallClockMs),
      carry_uint64 (lt_of_positiveSafeInteger h.maximumModelTokens)]
    rfl
  have hcarried : Schema.executionJobPlanSnapshot (planToWire p) =
      .obj [("mission_id", .str p.missionId),
        ("mission_revision", .int (truncate p.missionRevision)),
        ("test_case_id", .str p.testCaseId),
        ("steps", .arr (p.steps.toList.map fun step =>
          Schema.executionPlanStep (planStepToWire step))),
        ("expected_claim_ids", AppTarget.strings p.expectedClaimIds.toList),
        ("budget", .obj [("maximum_steps_per_job", .int (truncate p.budget.maximumStepsPerJob)),
          ("maximum_wall_clock_ms", .int p.budget.maximumWallClockMs),
          ("maximum_model_tokens", .int p.budget.maximumModelTokens)])] := by
    simp only [Schema.executionJobPlanSnapshot, Schema.text, Schema.texts, planToWire, message,
      carryFields, List.flatMap_cons, List.flatMap_nil, List.append_nil, JsValue.field_self,
      JsValue.field_of_ne, ne_eq, String.reduceEq, not_false_eq_true, carry_uint32, carry_str,
      carry_texts, carry_obj, hbudget, carry_steps]
    rfl
  rw [hcarried]
  refine bind_eq_ok.mpr ⟨_, rfl, bind_eq_ok.mpr
    ⟨(p.steps.toList.map truncateStep).map (·.toValue), ?_, ?_⟩⟩
  · simp only [JsValue.field_self, JsValue.field_of_ne, ne_eq, String.reduceEq,
      not_false_eq_true, asArray, steps_carried hn]
  · simp only [JsValue.field_self, JsValue.field_of_ne, ne_eq, String.reduceEq,
      not_false_eq_true, asArray, AppTarget.strings, NonEmptyList.toList, List.map_cons,
      reduceCtorEq, or_false, if_false, orEmpty, properties, asString, asNumber, bind,
      Except.bind]
    rfl

/-! ## Targets and policies -/

theorem carry_strings (xs : List String) :
    (FieldType.repeated string).carry (AppTarget.strings xs) =
      if xs = [] then none else some (AppTarget.strings xs) := by
  cases xs with
  | nil => rfl
  | cons x xs => exact carry_texts ⟨x, xs⟩

/-- A list that is carried is read as the same list, also when it is empty. -/
theorem wireStringArray_carried {wire : List (String × JsValue)} {field message : String}
    {xs : List String} (h : JsValue.field field wire =
      ((FieldType.repeated string).carry (AppTarget.strings xs)).getD .undefined) :
    wireStringArray wire field message = .ok (AppTarget.strings xs) := by
  unfold wireStringArray
  rw [h, carry_strings]
  cases xs with
  | nil => rfl
  | cons x xs =>
    have hall : (List.map JsValue.str (x :: xs)).all isText = true := by
      rw [List.all_map]
      exact List.all_eq_true.mpr fun _ _ => rfl
    exact if_pos hall

theorem requireWireString_eq {wire : List (String × JsValue)} {field message s : String}
    (h : JsValue.field field wire = .str s) :
    requireWireString wire field message = .ok (.str s) := by
  unfold requireWireString requireWireField
  rw [h]
  rfl

theorem requireWireObject_eq {wire fields : List (String × JsValue)} {field message : String}
    (h : JsValue.field field wire = .obj fields) :
    requireWireObject wire field message = .ok fields := by
  unfold requireWireObject requireWireField
  rw [h]
  rfl

theorem requireWireNumber_eq {wire : List (String × JsValue)} {field message : String} {n : ℤ}
    (h : JsValue.field field wire = .int n) :
    requireWireNumber wire field message = .ok (.int n) := by
  unfold requireWireNumber requireWireField
  rw [h]
  rfl

theorem requireWireBoolean_eq {wire : List (String × JsValue)} {field message : String} {b : Bool}
    (h : JsValue.field field wire = .bool b) :
    requireWireBoolean wire field message = .ok (.bool b) := by
  unfold requireWireBoolean requireWireField
  rw [h]
  rfl

theorem optionalWireString_eq {wire : List (String × JsValue)} {field message : String}
    {o : Option String} (h : JsValue.field field wire = (o.map JsValue.str).getD .undefined) :
    optionalWireString wire field message = .ok (o.map .str) := by
  unfold optionalWireString
  rw [h]
  cases o <;> rfl

theorem le_of_requireTimeoutMs {v : JsValue} {code : AppTargetErrorCode} {name : String} {n : ℕ}
    (h : AppTarget.requireTimeoutMs v code name = .ok n) : n < 2 ^ 64 := by
  unfold AppTarget.requireTimeoutMs AppTarget.maxTimeoutMs AppTarget.minTimeoutMs
    AppTarget.invalid at h
  split at h
  · split at h
    · cases h
    · cases h
      omega
  · cases h

/-- The timeouts of a validated target fit 64 bits. -/
theorem timeouts_fit {v : JsValue} {app : AppTarget} (h : AppTarget.validateAppTarget v = .ok app) :
    app.reset.timeoutMs < 2 ^ 64 ∧ app.shutdown.gracefulTimeoutMs < 2 ^ 64 := by
  unfold AppTarget.validateAppTarget at h
  obtain ⟨fields, hv, h⟩ := bind_eq_ok.mp h
  obtain ⟨targetId, hid, h⟩ := bind_eq_ok.mp h
  split at h
  · obtain ⟨launch, hl, h⟩ := bind_eq_ok.mp h
    obtain ⟨process, hp, h⟩ := bind_eq_ok.mp h
    obtain ⟨window, hw, h⟩ := bind_eq_ok.mp h
    obtain ⟨reset, hr, h⟩ := bind_eq_ok.mp h
    obtain ⟨shutdown, hs, h⟩ := bind_eq_ok.mp h
    cases h
    constructor
    · unfold AppTarget.validateReset at hr
      obtain ⟨_, _, hr⟩ := bind_eq_ok.mp hr
      obtain ⟨command, _, hr⟩ := bind_eq_ok.mp hr
      obtain ⟨args, _, hr⟩ := bind_eq_ok.mp hr
      split at hr
      · cases hr
      · obtain ⟨timeoutMs, ht, hr⟩ := bind_eq_ok.mp hr
        cases hr
        exact le_of_requireTimeoutMs ht
    · unfold AppTarget.validateShutdown at hs
      obtain ⟨_, _, hs⟩ := bind_eq_ok.mp hs
      obtain ⟨timeoutMs, ht, hs⟩ := bind_eq_ok.mp hs
      split at hs
      · cases hs
        exact le_of_requireTimeoutMs ht
      · cases hs
  · cases h

section AppTargets

variable (app : AppTarget)

/-- The parts of a desktop target as they arrive. -/
def carriedLaunch : List (String × JsValue) :=
  ("executable", .str app.launch.executable) ::
    (JsValue.optional "args" ((FieldType.repeated string).carry
      (AppTarget.strings app.launch.args)) ++
    JsValue.optional "working_directory" (app.launch.workingDirectory.map .str))

def carriedProcess : List (String × JsValue) :=
  ("expected_image_name", .str app.process.expectedImageName) ::
    JsValue.optional "allowed_child_image_names" ((FieldType.repeated string).carry
      (AppTarget.strings app.process.allowedChildImageNames))

def carriedWindow : List (String × JsValue) :=
  JsValue.optional "title_pattern" (app.window.titlePattern.map .str) ++
    JsValue.optional "automation_id" (app.window.automationId.map .str)

def carriedReset : List (String × JsValue) :=
  ("command", .str app.reset.command) ::
    (JsValue.optional "args" ((FieldType.repeated string).carry
      (AppTarget.strings app.reset.args)) ++
      ([("timeout_ms", .int app.reset.timeoutMs)] : List (String × JsValue)))

def carriedShutdown : List (String × JsValue) :=
  [("graceful_timeout_ms", .int app.shutdown.gracefulTimeoutMs),
    ("force_after_timeout", .bool app.shutdown.forceAfterTimeout)]

def carriedApp : List (String × JsValue) :=
  [("target_id", .str app.targetId), ("platform", .str "windows"),
    ("launch", .obj (carriedLaunch app)), ("process", .obj (carriedProcess app)),
    ("window", .obj (carriedWindow app)), ("reset", .obj (carriedReset app)),
    ("shutdown", .obj (carriedShutdown app))]

variable {app}

theorem appTarget_eq (h : app.reset.timeoutMs < 2 ^ 64 ∧
    app.shutdown.gracefulTimeoutMs < 2 ^ 64) :
    Schema.appTarget (appTargetToWire app) = .obj (carriedApp app) := by
  simp only [Schema.appTarget, Schema.appTargetLaunch, Schema.appTargetProcess,
    Schema.appTargetWindow, Schema.appTargetReset, Schema.appTargetShutdown, Schema.text,
    Schema.texts, appTargetToWire, message, carryFields, List.flatMap_cons, List.flatMap_nil,
    List.append_nil, List.cons_append, List.nil_append, JsValue.field_self, JsValue.field_of_ne,
    JsValue.field_optional_self, JsValue.field_optional_of_ne, JsValue.field_optional_only,
    JsValue.field_optional_only_of_ne, ne_eq, String.reduceEq, not_false_eq_true, carry_str,
    carry_bool, carry_obj, carry_optional, carry_uint64 h.1, carry_uint64 h.2]
  rfl

theorem readAppTarget_carried (h : AppTarget.validateAppTarget app.toValue = .ok app) :
    readAppTarget (carriedApp app) (carriedLaunch app) (carriedProcess app) (carriedReset app)
      (carriedShutdown app) (app.launch.workingDirectory.map .str)
      (app.window.titlePattern.map .str) (app.window.automationId.map .str) = .ok app := by
  have hargs : JsValue.field "args" (carriedLaunch app) =
      ((FieldType.repeated string).carry (AppTarget.strings app.launch.args)).getD .undefined := by
    simp only [carriedLaunch, JsValue.field_of_ne, JsValue.field_optional_self,
      JsValue.field_optional_only_of_ne, ne_eq, String.reduceEq, not_false_eq_true]
  have hallowed : JsValue.field "allowed_child_image_names" (carriedProcess app) =
      ((FieldType.repeated string).carry
        (AppTarget.strings app.process.allowedChildImageNames)).getD .undefined := by
    simp only [carriedProcess, JsValue.field_of_ne, JsValue.field_optional_only, ne_eq,
      String.reduceEq, not_false_eq_true]
  have hreset : JsValue.field "args" (carriedReset app) =
      ((FieldType.repeated string).carry (AppTarget.strings app.reset.args)).getD .undefined := by
    simp only [carriedReset, JsValue.field_of_ne, JsValue.field_optional_self, JsValue.field_nil,
      ne_eq, String.reduceEq, not_false_eq_true]
  have htimeout : JsValue.field "timeout_ms" (carriedReset app) = .int app.reset.timeoutMs := by
    simp only [carriedReset, JsValue.field_of_ne, JsValue.field_optional_of_ne,
      JsValue.field_self, ne_eq, String.reduceEq, not_false_eq_true]
  have hforce : JsValue.field "force_after_timeout" (carriedShutdown app) =
      .bool app.shutdown.forceAfterTimeout := by
    simp only [carriedShutdown, JsValue.field_of_ne, JsValue.field_self, ne_eq, String.reduceEq,
      not_false_eq_true]
  have hplatform : JsValue.field "platform" (carriedApp app) = .str "windows" := by
    simp only [carriedApp, JsValue.field_of_ne, JsValue.field_self, ne_eq, String.reduceEq,
      not_false_eq_true]
  refine bind_eq_ok.mpr ⟨_, requireWireString_eq (JsValue.field_self ..), ?_⟩
  refine bind_eq_ok.mpr ⟨_, requireWireString_eq hplatform, ?_⟩
  refine bind_eq_ok.mpr ⟨_, requireWireString_eq (JsValue.field_self ..), ?_⟩
  refine bind_eq_ok.mpr ⟨_, wireStringArray_carried hargs, ?_⟩
  refine bind_eq_ok.mpr ⟨_, requireWireString_eq (JsValue.field_self ..), ?_⟩
  refine bind_eq_ok.mpr ⟨_, wireStringArray_carried hallowed, ?_⟩
  refine bind_eq_ok.mpr ⟨_, requireWireString_eq (JsValue.field_self ..), ?_⟩
  refine bind_eq_ok.mpr ⟨_, wireStringArray_carried hreset, ?_⟩
  refine bind_eq_ok.mpr ⟨_, requireWireNumber_eq htimeout, ?_⟩
  refine bind_eq_ok.mpr ⟨_, requireWireNumber_eq (JsValue.field_self ..), ?_⟩
  refine bind_eq_ok.mpr ⟨_, requireWireBoolean_eq hforce, ?_⟩
  change (AppTarget.validateAppTarget app.toValue).mapError WireError.appTarget = .ok app
  rw [h]
  rfl

theorem appTarget_carried (h : AppTarget.validateAppTarget app.toValue = .ok app) :
    appTargetFromWire (Schema.appTarget (appTargetToWire app)) = .ok app := by
  have hlaunch : JsValue.field "launch" (carriedApp app) = .obj (carriedLaunch app) := by
    simp only [carriedApp, JsValue.field_of_ne, JsValue.field_self, ne_eq, String.reduceEq,
      not_false_eq_true]
  have hprocess : JsValue.field "process" (carriedApp app) = .obj (carriedProcess app) := by
    simp only [carriedApp, JsValue.field_of_ne, JsValue.field_self, ne_eq, String.reduceEq,
      not_false_eq_true]
  have hwindow : JsValue.field "window" (carriedApp app) = .obj (carriedWindow app) := by
    simp only [carriedApp, JsValue.field_of_ne, JsValue.field_self, ne_eq, String.reduceEq,
      not_false_eq_true]
  have hreset : JsValue.field "reset" (carriedApp app) = .obj (carriedReset app) := by
    simp only [carriedApp, JsValue.field_of_ne, JsValue.field_self, ne_eq, String.reduceEq,
      not_false_eq_true]
  have hshutdown : JsValue.field "shutdown" (carriedApp app) = .obj (carriedShutdown app) := by
    simp only [carriedApp, JsValue.field_of_ne, JsValue.field_self, ne_eq, String.reduceEq,
      not_false_eq_true]
  have hdirectory : JsValue.field "working_directory" (carriedLaunch app) =
      (app.launch.workingDirectory.map JsValue.str).getD .undefined := by
    simp only [carriedLaunch, JsValue.field_of_ne, JsValue.field_optional_of_ne,
      JsValue.field_optional_only, ne_eq, String.reduceEq, not_false_eq_true]
  have htitle : JsValue.field "title_pattern" (carriedWindow app) =
      (app.window.titlePattern.map JsValue.str).getD .undefined := by
    simp only [carriedWindow, JsValue.field_optional_self, JsValue.field_optional_only_of_ne,
      ne_eq, String.reduceEq, not_false_eq_true]
  have hautomation : JsValue.field "automation_id" (carriedWindow app) =
      (app.window.automationId.map JsValue.str).getD .undefined := by
    simp only [carriedWindow, JsValue.field_optional_of_ne, JsValue.field_optional_only, ne_eq,
      String.reduceEq, not_false_eq_true]
  rw [appTarget_eq (timeouts_fit h)]
  refine bind_eq_ok.mpr ⟨_, requireWireObject_eq hlaunch, ?_⟩
  refine bind_eq_ok.mpr ⟨_, requireWireObject_eq hprocess, ?_⟩
  refine bind_eq_ok.mpr ⟨_, requireWireObject_eq hwindow, ?_⟩
  refine bind_eq_ok.mpr ⟨_, requireWireObject_eq hreset, ?_⟩
  refine bind_eq_ok.mpr ⟨_, requireWireObject_eq hshutdown, ?_⟩
  refine bind_eq_ok.mpr ⟨_, optionalWireString_eq hdirectory, ?_⟩
  refine bind_eq_ok.mpr ⟨_, optionalWireString_eq htitle, ?_⟩
  refine bind_eq_ok.mpr ⟨_, optionalWireString_eq hautomation, ?_⟩
  rw [readAppTarget_carried h]
  rfl

end AppTargets

section Jobs

variable {P : Platform}

/-- A target on the wire keeps the member of its kind, which is named beside it. -/
theorem targetRef_eq (type : WireType) {kind : String} {fields : List (String × JsValue)}
    (hk : (kind, .singular type) ∈ Schema.targetMembers) :
    Schema.targetRef (.obj [(kind, .obj fields)]) =
      .obj [(kind, type (.obj fields)), ("target", .str kind)] := by
  have hfield : JsValue.field kind [(kind, .obj fields)] = .obj fields := JsValue.field_self ..
  have hsel := selected_eq hk (by decide)
    (by rw [hfield]; rfl) (by
      intro g hg hne
      rw [JsValue.field_of_ne hne.symm]
      rfl)
  have hcarry : (FieldType.singular type).carry (JsValue.field kind [(kind, .obj fields)]) =
      some (type (.obj fields)) := by
    rw [hfield]
    rfl
  unfold Schema.targetRef
  rw [messageOneof_eq hsel hcarry]
  rfl

theorem isNullish_obj (fields : List (String × JsValue)) : isNullish (.obj fields) = false := rfl

theorem isNullish_undefined : isNullish .undefined = true := rfl

theorem target_carried {t : TargetRef} (h : Job.parseTargetRef P t.toValue = .ok t) :
    targetFromWire (Schema.targetRef (targetToWire t)) = .ok t.toValue := by
  cases t with
  | web url =>
    have hcarried : Schema.webTarget (.obj [("url", .str url)]) = .obj [("url", .str url)] := by
      simp only [Schema.webTarget, Schema.text, message, carryFields, List.flatMap_cons,
        List.flatMap_nil, List.append_nil, JsValue.field_self, carry_str]
      rfl
    unfold targetToWire
    rw [targetRef_eq Schema.webTarget (by simp [Schema.targetMembers]), hcarried]
    unfold targetFromWire
    simp only [JsValue.field_self, JsValue.field_of_ne, JsValue.field_nil, ne_eq,
      String.reduceEq, not_false_eq_true, isNullish_obj, isNullish_undefined]
    rfl
  | desktop app =>
    have hv : AppTarget.validateAppTarget app.toValue = .ok app := by
      obtain ⟨fields, hf, h⟩ := bind_eq_ok.mp h
      cases hf
      rw [JsValue.field_self] at h
      obtain ⟨_, _, h⟩ := bind_eq_ok.mp h
      rw [JsValue.field_of_ne (by decide), JsValue.field_self] at h
      split at h
      · next app' happ =>
        cases h
        exact happ
      · cases h
    have hobj : ∃ fields, appTargetToWire app = .obj fields := ⟨_, rfl⟩
    obtain ⟨fields, hobj⟩ := hobj
    have hcarried : Schema.desktopTarget (.obj [("app", appTargetToWire app)]) =
        .obj [("app", Schema.appTarget (appTargetToWire app))] := by
      simp only [Schema.desktopTarget, message, carryFields, List.flatMap_cons,
        List.flatMap_nil, List.append_nil, JsValue.field_self, hobj, carry_obj]
      rfl
    unfold targetToWire
    rw [targetRef_eq Schema.desktopTarget (by simp [Schema.targetMembers]), hcarried]
    unfold targetFromWire
    simp only [JsValue.field_self, JsValue.field_of_ne, JsValue.field_nil, ne_eq,
      String.reduceEq, not_false_eq_true, isNullish_obj, isNullish_undefined, properties,
      appTarget_carried hv, bind, Except.bind]
    rfl

theorem enumText_environment (e : PolicyEnvironment) :
    ∃ s, enumText Job.environments e = .str s := by
  cases e <;> exact ⟨_, rfl⟩

theorem enumText_risk (r : PolicyRisk) : ∃ s, enumText Job.risks r = .str s := by
  cases r <;> exact ⟨_, rfl⟩

/-- A parsed policy allows an origin and an action. -/
theorem policy_nonempty {v : JsValue} {p : ExecutionPolicySnapshot}
    (h : Job.parseExecutionPolicySnapshot P v = .ok p) :
    p.allowedOrigins ≠ [] ∧ p.allowedActionKinds ≠ [] := by
  unfold Job.parseExecutionPolicySnapshot at h
  obtain ⟨fields, hv, h⟩ := bind_eq_ok.mp h
  obtain ⟨policyId, hid, h⟩ := bind_eq_ok.mp h
  obtain ⟨environment, henv, h⟩ := bind_eq_ok.mp h
  obtain ⟨texts, htx, h⟩ := bind_eq_ok.mp h
  obtain ⟨origins, hor, h⟩ := bind_eq_ok.mp h
  obtain ⟨kindValues, hkv, h⟩ := bind_eq_ok.mp h
  obtain ⟨kinds, hk, h⟩ := bind_eq_ok.mp h
  obtain ⟨risk, hrisk, h⟩ := bind_eq_ok.mp h
  have hne : ∀ {α β : Type} {f : α → Job.Parse β} {xs : NonEmptyList α} {ys : List β},
      xs.toList.mapM f = .ok ys → ys ≠ [] := by
    rintro α β f ⟨x, xs⟩ ys hm rfl
    unfold NonEmptyList.toList at hm
    rw [List.mapM_cons] at hm
    obtain ⟨y, _, hm⟩ := bind_eq_ok.mp hm
    obtain ⟨ys, _, hm⟩ := bind_eq_ok.mp hm
    cases hm
  split at h
  · obtain ⟨issuedAt, hi, h⟩ := bind_eq_ok.mp h
    obtain ⟨expiresAt, he, h⟩ := bind_eq_ok.mp h
    split at h
    · cases h
    split at h
    · cases h
    split at h
    · cases h
    cases h
    exact ⟨hne hor, hne hk⟩
  · cases h

theorem carry_kinds {kinds : List ActionKind} (h : kinds ≠ []) :
    (FieldType.repeated string).carry (.arr (kinds.map (enumText Job.actionKinds))) =
      some (.arr (kinds.map (enumText Job.actionKinds))) := by
  cases kinds with
  | nil => exact absurd rfl h
  | cons kind kinds =>
    change some (JsValue.arr (List.map id _)) = _
    rw [List.map_id]
    rfl

theorem policy_carried {p : ExecutionPolicySnapshot}
    (h : Job.parseExecutionPolicySnapshot P p.toValue = .ok p) :
    policyFromWire P (Schema.executionPolicySnapshot (policyToWire p)) = .ok p := by
  obtain ⟨ho, hk⟩ := policy_nonempty h
  obtain ⟨e, he⟩ := enumText_environment p.environment
  obtain ⟨r, hr⟩ := enumText_risk p.maximumRisk
  have hcarried : Schema.executionPolicySnapshot (policyToWire p) = policyToWire p := by
    simp only [Schema.executionPolicySnapshot, Schema.text, Schema.texts, policyToWire, message,
      carryFields, List.flatMap_cons, List.flatMap_nil, List.append_nil, JsValue.field_self,
      JsValue.field_of_ne, ne_eq, String.reduceEq, not_false_eq_true, he, hr, carry_str,
      carry_strings, ho, carry_kinds hk, carry_bool, if_false]
    rfl
  rw [hcarried]
  unfold policyToWire policyFromWire
  simp only [JsValue.field_self, JsValue.field_of_ne, ne_eq, String.reduceEq,
    not_false_eq_true]
  have hp := h
  unfold ExecutionPolicySnapshot.toValue at hp
  rw [hp]

/-! ## Jobs -/

theorem stepNamed_of_accepted {p : ExecutionJobPlanSnapshot} (h : Job.PlanAccepted p) :
    ∀ step ∈ p.steps.toList, StepNamed step := by
  intro step hs
  obtain ⟨v, _, hv⟩ := exists_of_mapM h.steps step hs
  exact stepNamed_of_parse hv

theorem optionalPlan_carried {o : Option ExecutionJobPlanSnapshot}
    (h : ∀ p ∈ o, Job.PlanAccepted p) :
    planFromWire (((FieldType.singular Schema.executionJobPlanSnapshot).carry
      ((o.map planToWire).getD .undefined)).getD .undefined) =
      .ok ((o.map truncatePlan).map (·.toValue)) := by
  cases o with
  | none => rfl
  | some p => exact plan_carried (h p rfl) (stepNamed_of_accepted (h p rfl))

/-- The properties of a job that arrive. -/
def carriedJob (job : AcceptedExecutionJob) : List (String × JsValue) :=
  [("job_id", .str job.jobId), ("run_id", .str job.runId),
    ("target", Schema.targetRef (targetToWire job.target)), ("objective", .str job.objective)] ++
    (JsValue.optional "plan" ((FieldType.singular Schema.executionJobPlanSnapshot).carry
      ((job.plan.map planToWire).getD .undefined)) ++
    [("policy", Schema.executionPolicySnapshot (policyToWire job.policy)),
      ("project_id", .str job.projectId)])

theorem acceptedExecutionJob_eq (job : AcceptedExecutionJob) :
    Schema.acceptedExecutionJob (jobToWire job) = .obj (carriedJob job) := by
  obtain ⟨target, ht⟩ : ∃ fields, targetToWire job.target = .obj fields := by
    cases job.target <;> exact ⟨_, rfl⟩
  obtain ⟨policy, hp⟩ : ∃ fields, policyToWire job.policy = .obj fields := ⟨_, rfl⟩
  simp only [Schema.acceptedExecutionJob, Schema.text, jobToWire, message, carryFields,
    List.flatMap_cons, List.flatMap_nil, List.append_nil, List.cons_append, List.nil_append,
    JsValue.field_self, JsValue.field_of_ne, JsValue.field_optional_only, ne_eq,
    String.reduceEq, not_false_eq_true, carry_str, ht, hp, carry_obj]
  unfold carriedJob
  rw [ht, hp]
  rfl

/-- An accepted job arrives as the parser reads the object of its truncated form. -/
theorem job_carried {job : AcceptedExecutionJob} (h : JobAccepted P job) :
    carryJob P job =
      ((parseExecutionJob P (truncateJob job).toValue).mapError ofJobError).mapError
        malformedJob := by
  have hplan : JsValue.field "plan" (carriedJob job) =
      ((FieldType.singular Schema.executionJobPlanSnapshot).carry
        ((job.plan.map planToWire).getD .undefined)).getD .undefined := by
    simp only [carriedJob, List.cons_append, List.nil_append, JsValue.field_of_ne,
      JsValue.field_optional_self, JsValue.field_nil, ne_eq, String.reduceEq, not_false_eq_true]
  have htarget : JsValue.field "target" (carriedJob job) =
      Schema.targetRef (targetToWire job.target) := by
    simp only [carriedJob, List.cons_append, JsValue.field_of_ne, JsValue.field_self, ne_eq,
      String.reduceEq, not_false_eq_true]
  have hpolicy : JsValue.field "policy" (carriedJob job) =
      Schema.executionPolicySnapshot (policyToWire job.policy) := by
    simp only [carriedJob, List.cons_append, List.nil_append, JsValue.field_of_ne,
      JsValue.field_optional_of_ne, JsValue.field_self, ne_eq, String.reduceEq,
      not_false_eq_true]
  unfold carryJob jobFromWire
  rw [acceptedExecutionJob_eq]
  congr 1
  change readJob P (carriedJob job) = _
  unfold readJob
  rw [hplan, optionalPlan_carried h.plan, htarget, hpolicy]
  simp only [bind, Except.bind, target_carried h.target, policy_carried h.policy]
  simp only [carriedJob, List.cons_append, List.nil_append, JsValue.field_of_ne,
    JsValue.field_optional_of_ne, JsValue.field_self, ne_eq, String.reduceEq, not_false_eq_true]
  rfl

/-! ## Jobs that fit -/

theorem truncate_eq_self {n : ℕ} (h : n < 2 ^ 32) : truncate n = n := Nat.mod_eq_of_lt h

theorem truncateStep_eq_self {step : ExecutionPlanStep}
    (h : ∀ i ∈ step.stepIndex, i < 2 ^ 32) : truncateStep step = step := by
  have hmap : ∀ {o : Option ℕ}, (∀ i ∈ o, i < 2 ^ 32) → o.map truncate = o := by
    intro o ho
    cases o with
    | none => rfl
    | some i => exact congrArg some (truncate_eq_self (ho i rfl))
  cases step with
  | navigate index path => exact congrArg (ExecutionPlanStep.navigate · path) (hmap h)
  | click index target => exact congrArg (ExecutionPlanStep.click · target) (hmap h)
  | input index target valueRef =>
    exact congrArg (ExecutionPlanStep.input · target valueRef) (hmap h)
  | select index target valueRef =>
    exact congrArg (ExecutionPlanStep.select · target valueRef) (truncate_eq_self (h index rfl))
  | scroll index target direction amount =>
    exact congrArg (ExecutionPlanStep.scroll · target direction amount)
      (truncate_eq_self (h index rfl))
  | verify index claimIds => exact congrArg (ExecutionPlanStep.verify · claimIds) (hmap h)

/-- An index of a validated step is a position of the list. -/
theorem index_lt_of_validate {steps : List ExecutionPlanStep}
    (h : Job.validateStepIndices steps = .ok ()) :
    ∀ step ∈ steps, ∀ i ∈ step.stepIndex, i < steps.length := by
  intro step hs i hi
  unfold Job.validateStepIndices Job.malformed at h
  split at h
  · next hnone =>
    have hn := List.all_eq_true.mp hnone step hs
    rw [Option.isNone_iff_eq_none] at hn
    rw [hn] at hi
    cases hi
  · split at h
    · next hall =>
      obtain ⟨k, hk, rfl⟩ := List.mem_iff_getElem.mp hs
      have hmem : (steps[k], k) ∈ steps.zipIdx := by
        rw [List.mem_zipIdx_iff_getElem?]
        exact List.getElem?_eq_getElem hk
      have hpos := List.all_eq_true.mp hall _ hmem
      rw [beq_iff_eq] at hpos
      rw [hpos] at hi
      cases hi
      exact hk
    · cases h

theorem truncatePlan_eq_self {p : ExecutionJobPlanSnapshot} (h : Job.PlanAccepted p)
    (hr : p.missionRevision < 2 ^ 32) (hm : p.budget.maximumStepsPerJob < 2 ^ 32) :
    truncatePlan p = p := by
  have hstep : ∀ step ∈ p.steps.toList, truncateStep step = step := fun step hs =>
    truncateStep_eq_self fun i hi =>
      (index_lt_of_validate h.indices step hs i hi).trans_le (h.fits.trans hm.le)
  have hrest : p.steps.rest.map truncateStep = p.steps.rest :=
    (List.map_congr_left fun step hs => hstep step (List.mem_cons_of_mem _ hs)).trans
      (List.map_id' _)
  unfold truncatePlan
  rw [hstep p.steps.first List.mem_cons_self, hrest, truncate_eq_self hr, truncate_eq_self hm]

theorem truncateJob_eq_self {job : AcceptedExecutionJob} (h : JobAccepted P job)
    (hf : FitsWire job) : truncateJob job = job := by
  have hplan : job.plan.map truncatePlan = job.plan := by
    cases hp : job.plan with
    | none => rfl
    | some p =>
      obtain ⟨hr, hm⟩ := hf p hp
      exact congrArg some (truncatePlan_eq_self (h.plan p hp) hr hm)
  unfold truncateJob
  rw [hplan]

/-- The numbers of a plan are read as they are written. -/
theorem numbers_of_parse_plan {p q : ExecutionJobPlanSnapshot}
    (h : Job.parseExecutionJobPlanSnapshot p.toValue = .ok q) :
    q.missionRevision = p.missionRevision ∧
      q.budget.maximumStepsPerJob = p.budget.maximumStepsPerJob := by
  obtain ⟨fields, hv, h⟩ := bind_eq_ok.mp h
  cases hv
  obtain ⟨_, _, h⟩ := bind_eq_ok.mp h
  obtain ⟨values, _, h⟩ := bind_eq_ok.mp h
  obtain ⟨steps, _, h⟩ := bind_eq_ok.mp h
  obtain ⟨_, _, h⟩ := bind_eq_ok.mp h
  obtain ⟨claims, _, h⟩ := bind_eq_ok.mp h
  obtain ⟨budget, hb, h⟩ := bind_eq_ok.mp h
  obtain ⟨_, _, h⟩ := bind_eq_ok.mp h
  obtain ⟨maximumSteps, hms, h⟩ := bind_eq_ok.mp h
  split at h
  · cases h
  obtain ⟨missionId, _, h⟩ := bind_eq_ok.mp h
  obtain ⟨missionRevision, hr, h⟩ := bind_eq_ok.mp h
  obtain ⟨testCaseId, _, h⟩ := bind_eq_ok.mp h
  obtain ⟨wallClock, _, h⟩ := bind_eq_ok.mp h
  obtain ⟨modelTokens, _, h⟩ := bind_eq_ok.mp h
  cases h
  simp only [JsValue.field_of_ne, JsValue.field_self, ne_eq, String.reduceEq,
    not_false_eq_true] at hb hr
  cases hb
  rw [JsValue.field_self] at hms
  have hr' := Job.eq_of_positiveSafeInteger hr
  have hms' := Job.eq_of_positiveSafeInteger hms
  simp only [JsValue.int.injEq, Int.natCast_inj] at hr' hms'
  exact ⟨hr'.symm, hms'.symm⟩

/-- The plan of a job is read from the object of its plan. -/
theorem plan_of_parse_job {job job' : AcceptedExecutionJob}
    (h : parseExecutionJob P job.toValue = .ok job') {p : ExecutionJobPlanSnapshot}
    (hp : p ∈ job.plan) :
    ∃ q ∈ job'.plan, Job.parseExecutionJobPlanSnapshot p.toValue = .ok q := by
  obtain ⟨raw, hv, h⟩ := bind_eq_ok.mp h
  cases hv
  obtain ⟨jobId, _, h⟩ := bind_eq_ok.mp h
  obtain ⟨runId, _, h⟩ := bind_eq_ok.mp h
  obtain ⟨projectId, _, h⟩ := bind_eq_ok.mp h
  obtain ⟨target, _, h⟩ := bind_eq_ok.mp h
  obtain ⟨objective, _, h⟩ := bind_eq_ok.mp h
  obtain ⟨policy, _, h⟩ := bind_eq_ok.mp h
  obtain ⟨plan, hplan, h⟩ := bind_eq_ok.mp h
  simp only [List.cons_append, List.nil_append, JsValue.field_of_ne,
    JsValue.field_optional_only, ne_eq, String.reduceEq, not_false_eq_true,
    Option.mem_def.mp hp, Option.map_some, Option.getD_some] at hplan
  split at h
  · cases h
  cases h
  obtain ⟨q, hq, hplan⟩ := bind_eq_ok.mp hplan
  cases hplan
  exact ⟨q, rfl, hq⟩

theorem mapError_eq_ok {ε ε' α : Type} {f : ε → ε'} {x : Except ε α} {a : α} :
    x.mapError f = .ok a ↔ x = .ok a := by
  cases x with
  | error e => exact ⟨nofun, nofun⟩
  | ok b => exact ⟨fun h => by cases h; rfl, fun h => by cases h; rfl⟩

/-- An accepted job arrives as it was sent exactly when it fits. -/
theorem carryJob_eq_ok_iff {job : AcceptedExecutionJob} (h : JobAccepted P job) :
    carryJob P job = .ok job ↔ FitsWire job := by
  rw [job_carried h, mapError_eq_ok, mapError_eq_ok]
  constructor
  · intro hparse p hp
    obtain ⟨q, hq, hpq⟩ := plan_of_parse_job hparse (p := truncatePlan p)
      (Option.mem_map_of_mem truncatePlan hp)
    obtain rfl : p = q := Option.mem_unique hp hq
    obtain ⟨hr, hm⟩ := numbers_of_parse_plan hpq
    refine ⟨?_, ?_⟩
    · rw [hr]
      exact Nat.mod_lt _ (by decide)
    · rw [hm]
      exact Nat.mod_lt _ (by decide)
  · intro hf
    rw [truncateJob_eq_self h hf]
    exact parse_of_jobAccepted h

end Jobs

/-! ## Completions -/

section Completions

variable {job : AcceptedExecutionJob} {c : ExecutionCompletion}

theorem json_strings (xs : List String) :
    (AppTarget.strings xs).json = AppTarget.strings xs := by
  have hitems : JsValue.jsonItems (xs.map .str) = xs.map .str := by
    induction xs with
    | nil => simp [JsValue.jsonItems]
    | cons x xs ih => simp [JsValue.jsonItems, JsValue.json, ih]
  unfold AppTarget.strings
  rw [JsValue.json, hitems]

theorem finding_json (f : Runner.FindingEnvelope) : f.toValue.json = f.toValue := by
  have hrefs := json_strings f.evidenceRefs
  unfold AppTarget.strings at hrefs
  simp [Runner.FindingEnvelope.toValue, AppTarget.strings, JsValue.json, JsValue.jsonFields] at *
  exact hrefs

theorem passed_carried (jobId runId : String) :
    carryCompletion ⟨jobId, runId, .passed⟩ = .ok ⟨jobId, runId, .passed⟩ := rfl

theorem error_carried (jobId runId errorCode : String) :
    carryCompletion ⟨jobId, runId, .error errorCode⟩ = .ok ⟨jobId, runId, .error errorCode⟩ :=
  rfl

theorem finding_carried (jobId runId : String) (f : Runner.FindingEnvelope) :
    carryCompletion ⟨jobId, runId, .finding f.toValue⟩ =
      .ok ⟨jobId, runId, .finding f.toValue⟩ := by
  have hwire : completionToWire ⟨jobId, runId, .finding f.toValue⟩ =
      .obj [("job_id", .str jobId), ("run_id", .str runId), ("status", .str "finding"),
        ("finding_json", f.toValue)] := by
    simp only [completionToWire, finding_json]
    rfl
  unfold carryCompletion
  rw [hwire]
  rfl

theorem blocked_carried (jobId runId errorCode : String) :
    carryCompletion ⟨jobId, runId, .blocked (some errorCode)⟩ =
      .ok ⟨jobId, runId, .blocked (if errorCode = "" then none else some errorCode)⟩ := rfl

/-- A completion of a run arrives as it was sent unless its code is lost. -/
theorem carryCompletion_eq_ok_iff (h : Runner.Produced job c) :
    carryCompletion c = .ok c ↔ c.status ≠ .blocked (some "") := by
  cases h with
  | passed => exact ⟨fun _ => nofun, fun _ => passed_carried ..⟩
  | finding f => exact ⟨fun _ => nofun, fun _ => finding_carried ..⟩
  | error errorCode => exact ⟨fun _ => nofun, fun _ => error_carried ..⟩
  | blocked errorCode =>
    unfold Runner.blockedCompletion
    rw [blocked_carried]
    by_cases he : errorCode = ""
    · subst he
      simp
    · simp [he]

end Completions

/-- Jobs and completions that are mapped to the wire and back: a parsed job is unchanged
exactly when its plan fits, and a completion of a run unless it is blocked with an empty
code. -/
theorem jobs_and_completions_survive (P : Platform) :
    (∀ (v : JsValue) (job : AcceptedExecutionJob), parseExecutionJob P v = .ok job →
      (carryJob P job = .ok job ↔ FitsWire job)) ∧
    ∀ (job : AcceptedExecutionJob) (deps : Runner.ExecutionRuntimeDependencies)
      (c : ExecutionCompletion), Runner.run job deps = some c →
      (carryCompletion c = .ok c ↔ c.status ≠ .blocked (some "")) :=
  ⟨fun _ _ h => carryJob_eq_ok_iff (jobAccepted_of_parse h),
    fun _ _ _ h => carryCompletion_eq_ok_iff (Runner.produced_of_run h)⟩

/-- A job with a plan of the given revision that clicks once. -/
def plannedJob (missionRevision : ℕ) : AcceptedExecutionJob :=
  { sampleJob "job" "run" with
    plan := some {
      missionId := "mission"
      missionRevision := missionRevision
      testCaseId := "case"
      steps := ⟨.click (some 0) ⟨none, none, "submit"⟩, []⟩
      expectedClaimIds := ⟨"claim", []⟩
      budget := ⟨10, 60000, 1000⟩ } }

/-- Dependencies that deny every action. -/
def denyingDependencies : Runner.ExecutionRuntimeDependencies where
  beginBudget := .ok ()
  beforeStep _ := .ok ()
  capture _ := .ok []
  decide _ := .ok .click
  resolve _ := .ok ()
  authorize _ := .ok false
  maximumOutputTokens _ := .ok ()
  execute _ := (false, .ok .ok)
  verify _ := .ok .passed
  record _ _ := .ok ()
  recordTerminal _ := .ok ()

theorem jobs_and_completions_survive_sample :
    (carryJob samplePlatform (plannedJob 1) = .ok (plannedJob 1) ↔ FitsWire (plannedJob 1)) ∧
    (carryCompletion (Runner.blockedCompletion (plannedJob 1) "PolicyDenied") =
        .ok (Runner.blockedCompletion (plannedJob 1) "PolicyDenied") ↔
      (Runner.blockedCompletion (plannedJob 1) "PolicyDenied").status ≠ .blocked (some "")) :=
  ⟨(jobs_and_completions_survive samplePlatform).1 (plannedJob 1).toValue (plannedJob 1)
      (by decide),
    (jobs_and_completions_survive samplePlatform).2 (plannedJob 1) denyingDependencies
      (Runner.blockedCompletion (plannedJob 1) "PolicyDenied") rfl⟩

/-- Revision 2³² + 1 of a mission arrives as its revision 1. -/
theorem revision_wraps_on_the_wire :
    parseExecutionJob samplePlatform (plannedJob (2 ^ 32 + 1)).toValue =
        .ok (plannedJob (2 ^ 32 + 1)) ∧
      carryJob samplePlatform (plannedJob (2 ^ 32 + 1)) = .ok (plannedJob 1) ∧
      carryJob samplePlatform (plannedJob (2 ^ 32 + 1)) ≠ .ok (plannedJob (2 ^ 32 + 1)) := by
  decide

end Qualigence.Grpc
