import Qualigence.Protocol.JsonParse
import Qualigence.Protocol.ReadBack

/-! # Typed data and its canonical texts

A type of JSON data writes each of its values as an object, an array or a scalar that no other
value is written as, not even in another order of keys. The canonical text of such a value, and
with it every injective digest of the text, then determines the value.
-/

namespace Qualigence.Protocol

open JsValue

/-- The bytes of the canonical text determine the canonical value. -/
theorem canonicalize_eq_of_bytes {v w : JsValue} (hv : Plain v) (hw : Plain w)
    (h : utf8Encode (textOf (canonicalize v)) = utf8Encode (textOf (canonicalize w))) :
    canonicalize v = canonicalize w := by
  apply textOf_injective (plain_canonicalize v hv) (plain_canonicalize w hw)
  have hs : utf8Bytes (String.ofList (textOf (canonicalize v))) =
      utf8Bytes (String.ofList (textOf (canonicalize w))) := by
    rwa [utf8Bytes, utf8Bytes, String.toList_ofList, String.toList_ofList]
  exact String.ofList_injective (utf8Bytes_injective hs)

/-- Objects with one canonical form agree in every property up to the order of keys. -/
theorem canonicalize_field {fields fields' : List (String × JsValue)}
    (hn : (fields.map Prod.fst).Nodup) (hn' : (fields'.map Prod.fst).Nodup)
    (h : canonicalize (.obj fields) = canonicalize (.obj fields')) (key : String) :
    canonicalize (field key fields) = canonicalize (field key fields') := by
  rw [← field_canonicalFieldsOf key hn, ← field_canonicalFieldsOf key hn']
  exact congrArg (field key) (JsValue.obj.inj h)

/-- A type whose values are written as JSON data that their canonical forms tell apart. -/
class JsonData (α : Type) where
  toJs : α → JsValue
  plain : ∀ a, Plain (toJs a)
  eq_of_canonicalize : ∀ {a b}, canonicalize (toJs a) = canonicalize (toJs b) → a = b

export JsonData (toJs)

section JsonData

variable {α : Type} [JsonData α]

/-- A property that is spread into an object when it is present. -/
def optionalData (key : String) (a : Option α) : List (String × JsValue) :=
  optional key (a.map toJs)

@[simp] theorem optionalData_none (key : String) : optionalData key (none : Option α) = [] := rfl

@[simp] theorem optionalData_some (key : String) (a : α) :
    optionalData key (some a) = [(key, toJs a)] := rfl

theorem plainFields_optionalData (key : String) (a : Option α) :
    PlainFields (optionalData key a) := by
  cases a with
  | none => trivial
  | some a => exact ⟨JsonData.plain a, trivial⟩

theorem canonicalize_toJs_ne_undefined (a : α) : canonicalize (toJs a) ≠ .undefined := by
  intro h
  have hp := plain_canonicalize _ (JsonData.plain a)
  rw [h] at hp
  exact hp

@[simp] theorem canonicalize_toJs_inj {a b : α} :
    canonicalize (toJs a) = canonicalize (toJs b) ↔ a = b :=
  ⟨JsonData.eq_of_canonicalize, congrArg fun a => canonicalize (toJs a)⟩

@[simp] theorem toJs_inj {a b : α} : toJs a = toJs b ↔ a = b :=
  ⟨fun h => JsonData.eq_of_canonicalize (congrArg canonicalize h), congrArg toJs⟩

@[simp] theorem canonicalize_getD_inj {a b : Option α} :
    canonicalize ((a.map toJs).getD .undefined) = canonicalize ((b.map toJs).getD .undefined) ↔
      a = b := by
  have hu (a : α) := canonicalize_toJs_ne_undefined a
  cases a <;> cases b <;> simp_all [canonicalize, eq_comm]

instance : JsonData String where
  toJs := .str
  plain _ := trivial
  eq_of_canonicalize h := JsValue.str.inj h

instance : JsonData ℕ where
  toJs n := .int n
  plain _ := trivial
  eq_of_canonicalize h := Int.ofNat.inj (JsValue.int.inj h)

instance : JsonData Bool where
  toJs := .bool
  plain _ := trivial
  eq_of_canonicalize h := JsValue.bool.inj h

instance : JsonData (List α) where
  toJs items := .arr (items.map toJs)
  plain items := by
    rw [Plain, plainItems_iff]
    intro v hv
    obtain ⟨a, -, rfl⟩ := List.mem_map.mp hv
    exact JsonData.plain a
  eq_of_canonicalize h := by
    rw [canonicalize_arr, canonicalize_arr, JsValue.arr.injEq, List.map_map, List.map_map] at h
    exact List.map_injective_iff.mpr (fun _ _ => JsonData.eq_of_canonicalize) h

instance : JsonData (NonEmptyList α) where
  toJs items := toJs items.toList
  plain items := JsonData.plain items.toList
  eq_of_canonicalize {a b} h := by
    obtain ⟨hf, hr⟩ := List.cons.inj (JsonData.eq_of_canonicalize h)
    cases a
    cases b
    simp_all

@[simp] theorem field_optionalData_self (key : String) (a : Option α)
    (fields : List (String × JsValue)) :
    field key (optionalData key a ++ fields) = (a.map toJs).getD (field key fields) :=
  field_optional_self key _ fields

@[simp] theorem field_optionalData_of_ne {key k : String} (h : k ≠ key) (a : Option α)
    (fields : List (String × JsValue)) :
    field key (optionalData k a ++ fields) = field key fields :=
  field_optional_of_ne h _ fields

@[simp] theorem field_optionalData_only (key : String) (a : Option α) :
    field key (optionalData key a) = (a.map toJs).getD .undefined :=
  field_optional_only key _

/-- Data with one digest of its canonical text is equal. -/
theorem eq_of_hashCanonical {P : Platform} (hsha : Function.Injective P.sha256Hex) {a b : α}
    (h : P.hashCanonical (toJs a) = P.hashCanonical (toJs b)) : a = b :=
  JsonData.eq_of_canonicalize
    (canonicalize_eq_of_bytes (JsonData.plain a) (JsonData.plain b) (hsha h))

end JsonData

theorem plainFields_cons (key : String) (v : JsValue) (fields : List (String × JsValue)) :
    PlainFields ((key, v) :: fields) ↔ Plain v ∧ PlainFields fields := Iff.rfl

theorem plainFields_append (fields fields' : List (String × JsValue)) :
    PlainFields (fields ++ fields') ↔ PlainFields fields ∧ PlainFields fields' := by
  simp only [plainFields_iff, List.forall_mem_append]

/-- Values that are written as texts of their own. -/
@[reducible]
def textData {α : Type} (text : α → String) (h : Function.Injective text) : JsonData α where
  toJs a := .str (text a)
  plain _ := trivial
  eq_of_canonicalize hc := h (JsValue.str.inj hc)

/-- Values that are written as objects that differ in the canonical form of some property. -/
@[reducible]
def objectData {α : Type} (fields : α → List (String × JsValue))
    (nodup : ∀ a, ((fields a).map Prod.fst).Nodup) (plain : ∀ a, PlainFields (fields a))
    (eq_of_fields : ∀ {a b}, (∀ key, canonicalize (field key (fields a)) =
      canonicalize (field key (fields b))) → a = b) : JsonData α where
  toJs a := .obj (fields a)
  plain a := ⟨nodup a, plain a⟩
  eq_of_canonicalize h := eq_of_fields (canonicalize_field (nodup _) (nodup _) h)

end Qualigence.Protocol
