import Mathlib.Algebra.GroupWithZero.Nat
import Qualigence.Protocol.JsonData
import Qualigence.Protocol.TextOrder

/-! # The identity that a payload hash is

A payload is hashed by its canonical text, and stored and spooled by `JSON.stringify`. The two
treat an absent part differently: the canonical text writes an absent property as `undefined` and
an absent entry of an array as nothing, where the JSON text leaves out the one and writes `null`
for the other. The hash is the identity of the JSON value exactly as long as no part is absent.
-/

namespace Qualigence.Protocol

open JsValue

mutual
/-- A value that a program can build: objects list each key once, and numbers have their texts. -/
def Legal : JsValue → Prop
  | .real text => NumberText text
  | .arr items => LegalItems items
  | .obj fields => (fields.map Prod.fst).Nodup ∧ LegalFields fields
  | _ => True

def LegalItems : List JsValue → Prop
  | [] => True
  | item :: items => Legal item ∧ LegalItems items

def LegalFields : List (String × JsValue) → Prop
  | [] => True
  | (_, value) :: fields => Legal value ∧ LegalFields fields
end

mutual
/-- No part of the value, at any depth, is `undefined`. -/
def Complete : JsValue → Prop
  | .undefined => False
  | .arr items => CompleteItems items
  | .obj fields => CompleteFields fields
  | _ => True

def CompleteItems : List JsValue → Prop
  | [] => True
  | item :: items => Complete item ∧ CompleteItems items

def CompleteFields : List (String × JsValue) → Prop
  | [] => True
  | (_, value) :: fields => Complete value ∧ CompleteFields fields
end

/-- A payload: optional properties and entries of arrays may be absent, the value itself not. -/
structure Payload (v : JsValue) : Prop where
  legal : Legal v
  present : v ≠ .undefined

mutual
/-- Equality of JSON values up to the order of the keys of objects. -/
def SameJson : JsValue → JsValue → Prop
  | .arr items, .arr items' => SameItems items items'
  | .obj fields, .obj fields' => fields.length = fields'.length ∧ SameFields fields fields'
  | v, w => v = w

def SameItems : List JsValue → List JsValue → Prop
  | [], [] => True
  | v :: items, w :: items' => SameJson v w ∧ SameItems items items'
  | _, _ => False

/-- Each of the properties is among the other ones, with the same value. -/
def SameFields : List (String × JsValue) → List (String × JsValue) → Prop
  | [], _ => True
  | (key, v) :: fields, fields' =>
    (∃ w, (key, w) ∈ fields' ∧ SameJson v w) ∧ SameFields fields fields'
end

/-- `JSON.parse(JSON.stringify(value))`. -/
def readBack (v : JsValue) : Option JsValue := (stringifyChars v).bind parseJson

/-- The JSON texts of two values denote one JSON value up to the order of keys. -/
def SameSerialization (v w : JsValue) : Prop :=
  ∃ v' w', readBack v = some v' ∧ readBack w = some w' ∧ SameJson v' w'

/-! ## Reading back -/

mutual
theorem printed_iff : (v : JsValue) → (Printed v ↔ Legal v ∧ Complete v)
  | .undefined | .null | .bool _ | .int _ | .real _ | .str _ => by
    simp [Printed, Legal, Complete]
  | .arr items => by simp only [Printed, Legal, Complete, printedItems_iff items]
  | .obj fields => by
    simp only [Printed, Legal, Complete, printedFields_iff fields, and_assoc]

theorem printedItems_iff :
    (items : List JsValue) → (PrintedItems items ↔ LegalItems items ∧ CompleteItems items)
  | [] => by simp [PrintedItems, LegalItems, CompleteItems]
  | v :: items => by
    simp only [PrintedItems, LegalItems, CompleteItems, printed_iff v, printedItems_iff items]
    tauto

theorem printedFields_iff : (fields : List (String × JsValue)) →
    (PrintedFields fields ↔ LegalFields fields ∧ CompleteFields fields)
  | [] => by simp [PrintedFields, LegalFields, CompleteFields]
  | (_, v) :: fields => by
    simp only [PrintedFields, LegalFields, CompleteFields, printed_iff v,
      printedFields_iff fields]
    tauto
end

theorem jsonItems_cons {v : JsValue} (h : v ≠ .undefined) (items : List JsValue) :
    jsonItems (v :: items) = v.json :: jsonItems items := by
  rw [jsonItems]
  exact h

theorem jsonFields_cons {v : JsValue} (h : v ≠ .undefined) (key : String)
    (fields : List (String × JsValue)) :
    jsonFields ((key, v) :: fields) = (key, v.json) :: jsonFields fields := by
  rw [jsonFields]
  exact h

theorem keys_jsonFields (fields : List (String × JsValue)) :
    ((jsonFields fields).map Prod.fst).Sublist (fields.map Prod.fst) := by
  induction fields with
  | nil => exact List.Sublist.slnil
  | cons f fields ih =>
    obtain ⟨key, v⟩ := f
    by_cases hv : v = .undefined
    · subst hv
      exact ih.cons key
    · rw [jsonFields_cons hv]
      exact ih.cons_cons key

mutual
/-- What is written of a value has no absent part. -/
theorem printed_json : (v : JsValue) → Payload v → Printed v.json
  | .undefined, h => absurd rfl h.present
  | .null, _ | .bool _, _ | .int _, _ | .str _, _ => by simp [json, Printed]
  | .real _, h => by simpa only [json, Printed, Legal] using h.legal
  | .arr items, h => by
    rw [json, Printed]
    exact printed_jsonItems items h.legal
  | .obj fields, h => by
    rw [json, Printed]
    exact ⟨h.legal.1.sublist (keys_jsonFields fields), printed_jsonFields fields h.legal.2⟩

theorem printed_jsonItems :
    (items : List JsValue) → LegalItems items → PrintedItems (jsonItems items)
  | [], _ => by simp [jsonItems, PrintedItems]
  | v :: items, h => by
    by_cases hv : v = .undefined
    · subst hv
      rw [jsonItems]
      exact ⟨by simp [Printed], printed_jsonItems items h.2⟩
    · rw [jsonItems_cons hv]
      exact ⟨printed_json v ⟨h.1, hv⟩, printed_jsonItems items h.2⟩

theorem printed_jsonFields : (fields : List (String × JsValue)) → LegalFields fields →
    PrintedFields (jsonFields fields)
  | [], _ => by simp [jsonFields, PrintedFields]
  | (key, v) :: fields, h => by
    by_cases hv : v = .undefined
    · subst hv
      rw [jsonFields]
      exact printed_jsonFields fields h.2
    · rw [jsonFields_cons hv]
      exact ⟨printed_json v ⟨h.1, hv⟩, printed_jsonFields fields h.2⟩
end

mutual
/-- The JSON text does not tell an absent part from one that is left out. -/
theorem stringifyChars_json : (v : JsValue) → stringifyChars v.json = stringifyChars v
  | .undefined | .null | .bool _ | .int _ | .real _ | .str _ => by simp [json]
  | .arr items => by simp only [json, stringifyChars, stringifyItems_json items]
  | .obj fields => by simp only [json, stringifyChars, stringifyFields_json fields]

theorem stringifyItems_json :
    (items : List JsValue) → stringifyItems (jsonItems items) = stringifyItems items
  | [] => by simp [jsonItems]
  | v :: items => by
    by_cases hv : v = .undefined
    · subst hv
      simp [jsonItems, stringifyItems, stringifyChars, stringifyItems_json items]
    · simp only [jsonItems_cons hv, stringifyItems, stringifyChars_json v,
        stringifyItems_json items]

theorem stringifyFields_json : (fields : List (String × JsValue)) →
    stringifyFields (jsonFields fields) = stringifyFields fields
  | [] => by simp [jsonFields]
  | (key, v) :: fields => by
    by_cases hv : v = .undefined
    · subst hv
      simp [jsonFields, stringifyFields, stringifyChars, stringifyFields_json fields]
    · simp only [jsonFields_cons hv, stringifyFields, stringifyChars_json v,
        stringifyFields_json fields]
end

/-- A payload is read back as its JSON value. -/
theorem readBack_eq {v : JsValue} (h : Payload v) : readBack v = some v.json := by
  have hp := printed_json v h
  rw [readBack, ← stringifyChars_json, stringifyChars_of_printed hp, Option.bind_some,
    parseJson_textOf hp]

mutual
/-- Nothing changes a value without absent parts. -/
theorem json_of_complete : (v : JsValue) → Complete v → v.json = v
  | .undefined, h => absurd h (by simp [Complete])
  | .null, _ | .bool _, _ | .int _, _ | .real _, _ | .str _, _ => by simp [json]
  | .arr items, h => by rw [json, jsonItems_of_complete items h]
  | .obj fields, h => by rw [json, jsonFields_of_complete fields h]

theorem jsonItems_of_complete :
    (items : List JsValue) → CompleteItems items → jsonItems items = items
  | [], _ => by simp [jsonItems]
  | v :: items, h => by
    have hv : v ≠ .undefined := by
      rintro rfl
      exact absurd h.1 (by simp [Complete])
    rw [jsonItems_cons hv, json_of_complete v h.1, jsonItems_of_complete items h.2]

theorem jsonFields_of_complete :
    (fields : List (String × JsValue)) → CompleteFields fields → jsonFields fields = fields
  | [], _ => by simp [jsonFields]
  | (key, v) :: fields, h => by
    have hv : v ≠ .undefined := by
      rintro rfl
      exact absurd h.1 (by simp [Complete])
    rw [jsonFields_cons hv, json_of_complete v h.1, jsonFields_of_complete fields h.2]
end

/-! ## What the canonical text keeps of an absent part -/

mutual
/-- The number of absent properties. -/
def absentProperties : JsValue → ℕ
  | .arr items => absentInItems items
  | .obj fields => absentInFields fields
  | _ => 0

def absentInItems : List JsValue → ℕ
  | [] => 0
  | item :: items => absentProperties item + absentInItems items

def absentInFields : List (String × JsValue) → ℕ
  | [] => 0
  | (_, .undefined) :: fields => absentInFields fields + 1
  | (_, value) :: fields => absentProperties value + absentInFields fields
end

mutual
/-- The number of absent entries of arrays. -/
def holes : JsValue → ℕ
  | .arr items => holesOfItems items
  | .obj fields => holesOfFields fields
  | _ => 0

def holesOfItems : List JsValue → ℕ
  | [] => 0
  | .undefined :: items => holesOfItems items + 1
  | item :: items => holes item + holesOfItems items

def holesOfFields : List (String × JsValue) → ℕ
  | [] => 0
  | (_, value) :: fields => holes value + holesOfFields fields
end

mutual
theorem complete_iff : (v : JsValue) → v ≠ .undefined →
    (Complete v ↔ absentProperties v = 0 ∧ holes v = 0)
  | .undefined, h => absurd rfl h
  | .null, _ | .bool _, _ | .int _, _ | .real _, _ | .str _, _ => by
    simp [Complete, absentProperties, holes]
  | .arr items, _ => by
    simp only [Complete, absentProperties, holes, completeItems_iff items]
  | .obj fields, _ => by
    simp only [Complete, absentProperties, holes, completeFields_iff fields]

theorem completeItems_iff : (items : List JsValue) →
    (CompleteItems items ↔ absentInItems items = 0 ∧ holesOfItems items = 0)
  | [] => by simp [CompleteItems, absentInItems, holesOfItems]
  | v :: items => by
    by_cases hv : v = .undefined
    · subst hv
      simp [CompleteItems, Complete, holesOfItems]
    · have hh : holesOfItems (v :: items) = holes v + holesOfItems items := by
        rw [holesOfItems]
        exact hv
      rw [CompleteItems, complete_iff v hv, completeItems_iff items, absentInItems, hh]
      omega

theorem completeFields_iff : (fields : List (String × JsValue)) →
    (CompleteFields fields ↔ absentInFields fields = 0 ∧ holesOfFields fields = 0)
  | [] => by simp [CompleteFields, absentInFields, holesOfFields]
  | (key, v) :: fields => by
    by_cases hv : v = .undefined
    · subst hv
      simp [CompleteFields, Complete, absentInFields]
    · have ha : absentInFields ((key, v) :: fields) =
          absentProperties v + absentInFields fields := by
        rw [absentInFields]
        exact hv
      rw [CompleteFields, complete_iff v hv, completeFields_iff fields, holesOfFields, ha]
      omega
end

/-- The canonical text of a value that has one. -/
def canonicalText (v : JsValue) : List Char := (canonicalChars v).getD []

/-- The text of a property in a canonical text. -/
def propertyText (f : String × List Char) : List Char := quote f.1 ++ ':' :: f.2

theorem canonicalText_arr (items : List JsValue) :
    canonicalText (.arr items) = '[' :: joinComma (canonicalItems items) ++ [']'] := by
  simp [canonicalText, canonicalChars]

theorem canonicalText_obj (fields : List (String × JsValue)) :
    canonicalText (.obj fields) = '\x7b' :: joinComma
      (((canonicalFields fields).insertionSort fun x y => utf16Le x.1 y.1).map propertyText) ++
        ['\x7d'] := by
  simp [canonicalText, canonicalChars]
  rfl

theorem canonicalChars_of_present {v : JsValue} (h : v ≠ .undefined) :
    canonicalChars v = some (canonicalText v) := by
  cases v with
  | undefined => exact absurd rfl h
  | bool b => cases b <;> simp [canonicalText, canonicalChars]
  | _ => simp [canonicalText, canonicalChars]

theorem count_joinComma {c : Char} (hc : c ≠ ',') (texts : List (List Char)) :
    (joinComma texts).count c = (texts.map (List.count c)).sum := by
  induction texts with
  | nil => rfl
  | cons text texts ih =>
    by_cases ht : texts = []
    · simp [ht, joinComma_singleton]
    · rw [joinComma_cons ht, List.count_append, List.count_cons_of_ne hc.symm, ih, List.map_cons,
        List.sum_cons]

theorem length_joinComma (texts : List (List Char)) :
    (joinComma texts).length = (texts.map List.length).sum + (texts.length - 1) := by
  induction texts with
  | nil => rfl
  | cons text texts ih =>
    by_cases ht : texts = []
    · simp [ht, joinComma_singleton]
    · have hl : 0 < texts.length := List.length_pos_iff.mpr ht
      rw [joinComma_cons ht, List.length_append, List.length_cons, ih, List.map_cons,
        List.sum_cons, List.length_cons]
      omega

/-- Sorting the properties does not change what a sum over their texts is. -/
theorem sum_sorted (weight : List Char → ℕ) (fields : List (String × List Char)) :
    (((fields.insertionSort fun x y => utf16Le x.1 y.1).map propertyText).map weight).sum =
      (fields.map fun f => weight (propertyText f)).sum := by
  rw [List.map_map]
  exact ((List.perm_insertionSort _ fields).map _).sum_nat

theorem jsonItems_length (items : List JsValue) : (jsonItems items).length = items.length := by
  induction items with
  | nil => rfl
  | cons v items ih =>
    by_cases hv : v = .undefined
    · subst hv
      rw [jsonItems, List.length_cons, ih, List.length_cons]
    · rw [jsonItems_cons hv, List.length_cons, ih, List.length_cons]

theorem canonicalItems_eq (items : List JsValue) :
    canonicalItems items = items.map canonicalText := by
  induction items with
  | nil => rfl
  | cons v items ih =>
    rw [canonicalItems, ih, List.map_cons]
    rfl

theorem canonicalFields_cons {v : JsValue} (h : v ≠ .undefined) (key : String)
    (fields : List (String × JsValue)) :
    canonicalFields ((key, v) :: fields) = (key, canonicalText v) :: canonicalFields fields := by
  rw [canonicalFields, canonicalChars_of_present h]
  rfl

theorem absentInFields_cons {v : JsValue} (h : v ≠ .undefined) (key : String)
    (fields : List (String × JsValue)) :
    absentInFields ((key, v) :: fields) = absentProperties v + absentInFields fields := by
  rw [absentInFields]
  exact h

theorem holesOfItems_cons {v : JsValue} (h : v ≠ .undefined) (items : List JsValue) :
    holesOfItems (v :: items) = holes v + holesOfItems items := by
  rw [holesOfItems]
  exact h

theorem quotes_arr (items : List JsValue) : (canonicalText (.arr items)).count '\"' =
    ((canonicalItems items).map (List.count '\"')).sum := by
  rw [canonicalText_arr, List.cons_append, List.count_cons_of_ne (by decide), List.count_append,
    count_joinComma (by decide)]
  rfl

theorem quotes_obj (fields : List (String × JsValue)) :
    (canonicalText (.obj fields)).count '\"' =
      ((canonicalFields fields).map fun f => (propertyText f).count '\"').sum := by
  rw [canonicalText_obj, List.cons_append, List.count_cons_of_ne (by decide), List.count_append,
    count_joinComma (by decide), sum_sorted]
  rfl

theorem quotes_propertyText (key : String) (text : List Char) :
    (propertyText (key, text)).count '\"' = (quote key).count '\"' + text.count '\"' := by
  rw [propertyText, List.count_append, List.count_cons_of_ne (by decide)]

theorem quotes_quote (key : String) : 0 < (quote key).count '\"' :=
  List.count_pos_iff.mpr List.mem_cons_self

mutual
/-- Every property that is left out takes its quoted key with it. -/
theorem quotes_json : (v : JsValue) →
    (canonicalText v.json).count '\"' + absentProperties v ≤ (canonicalText v).count '\"'
  | .undefined | .null | .bool _ | .int _ | .real _ | .str _ => by simp [json, absentProperties]
  | .arr items => by
    rw [json, quotes_arr, quotes_arr, absentProperties]
    exact quotes_jsonItems items
  | .obj fields => by
    rw [json, quotes_obj, quotes_obj, absentProperties]
    exact quotes_jsonFields fields

theorem quotes_jsonItems : (items : List JsValue) →
    ((canonicalItems (jsonItems items)).map (List.count '\"')).sum + absentInItems items ≤
      ((canonicalItems items).map (List.count '\"')).sum
  | [] => by simp [jsonItems, absentInItems]
  | v :: items => by
    have hrest := quotes_jsonItems items
    by_cases hv : v = .undefined
    · subst hv
      simpa [jsonItems, canonicalItems, canonicalChars, absentInItems, absentProperties]
        using hrest
    · have hhead := quotes_json v
      rw [canonicalItems_eq, canonicalItems_eq] at hrest ⊢
      rw [jsonItems_cons hv, absentInItems]
      simp only [List.map_cons, List.sum_cons]
      omega

theorem quotes_jsonFields : (fields : List (String × JsValue)) →
    ((canonicalFields (jsonFields fields)).map fun f => (propertyText f).count '\"').sum +
        absentInFields fields ≤
      ((canonicalFields fields).map fun f => (propertyText f).count '\"').sum
  | [] => by simp [jsonFields, absentInFields]
  | (key, v) :: fields => by
    have hrest := quotes_jsonFields fields
    have hkey := quotes_quote key
    by_cases hv : v = .undefined
    · subst hv
      rw [jsonFields, absentInFields, canonicalFields, List.map_cons, List.sum_cons,
        quotes_propertyText]
      omega
    · have hhead := quotes_json v
      rw [jsonFields_cons hv, absentInFields_cons hv, canonicalFields_cons hv,
        canonicalFields_cons (json_ne_undefined hv)]
      simp only [List.map_cons, List.sum_cons, quotes_propertyText]
      omega
end

theorem length_arr (items : List JsValue) : (canonicalText (.arr items)).length =
    ((canonicalItems items).map List.length).sum + (items.length - 1) + 2 := by
  rw [canonicalText_arr, canonicalItems_eq]
  simp only [List.length_cons, List.length_append, length_joinComma, List.length_map,
    List.length_nil]

theorem length_canonicalFields (fields : List (String × JsValue)) :
    (canonicalFields fields).length = fields.length := by
  induction fields with
  | nil => rfl
  | cons f fields ih => rw [canonicalFields, List.length_cons, ih, List.length_cons]

theorem length_obj (fields : List (String × JsValue)) : (canonicalText (.obj fields)).length =
    ((canonicalFields fields).map fun f => (propertyText f).length).sum +
      (fields.length - 1) + 2 := by
  rw [canonicalText_obj]
  simp only [List.length_cons, List.length_append, length_joinComma, sum_sorted, List.length_map,
    List.length_insertionSort, length_canonicalFields, List.length_nil]

theorem length_propertyText (key : String) (text : List Char) :
    (propertyText (key, text)).length = (quote key).length + 1 + text.length := by
  have ht : propertyText (key, text) = quote key ++ ':' :: text := rfl
  rw [ht, List.length_append, List.length_cons]
  omega

theorem length_jsonFields {fields : List (String × JsValue)} (h : absentInFields fields = 0) :
    (jsonFields fields).length = fields.length := by
  induction fields with
  | nil => rfl
  | cons f fields ih =>
    obtain ⟨key, v⟩ := f
    by_cases hv : v = .undefined
    · subst hv
      rw [absentInFields] at h
      omega
    · rw [absentInFields_cons hv] at h
      rw [jsonFields_cons hv, List.length_cons, ih (by omega), List.length_cons]

mutual
/-- Where no property is left out, every hole grows by the four characters of `null`. -/
theorem length_json : (v : JsValue) → absentProperties v = 0 →
    (canonicalText v.json).length = (canonicalText v).length + 4 * holes v
  | .undefined, _ | .null, _ | .bool _, _ | .int _, _ | .real _, _ | .str _, _ => by
    simp [json, holes]
  | .arr items, h => by
    rw [absentProperties] at h
    have hitems := length_jsonItems items h
    rw [json, length_arr, length_arr, jsonItems_length, holes, hitems]
    omega
  | .obj fields, h => by
    rw [absentProperties] at h
    have hfields := length_jsonFields_texts fields h
    rw [json, length_obj, length_obj, length_jsonFields h, holes, hfields]
    omega

theorem length_jsonItems : (items : List JsValue) → absentInItems items = 0 →
    ((canonicalItems (jsonItems items)).map List.length).sum =
      ((canonicalItems items).map List.length).sum + 4 * holesOfItems items
  | [], _ => by simp [jsonItems, holesOfItems]
  | v :: items, h => by
    rw [absentInItems, Nat.add_eq_zero_iff] at h
    have hrest := length_jsonItems items h.2
    by_cases hv : v = .undefined
    · subst hv
      simp only [jsonItems, canonicalItems, canonicalChars, Option.getD_none, Option.getD_some,
        List.map_cons, List.sum_cons, List.length_cons, List.length_nil, holesOfItems, hrest]
      omega
    · have hhead := length_json v h.1
      rw [canonicalItems_eq, canonicalItems_eq] at hrest ⊢
      rw [jsonItems_cons hv, holesOfItems_cons hv]
      simp only [List.map_cons, List.sum_cons, hhead, hrest]
      omega

theorem length_jsonFields_texts : (fields : List (String × JsValue)) →
    absentInFields fields = 0 →
    ((canonicalFields (jsonFields fields)).map fun f => (propertyText f).length).sum =
      ((canonicalFields fields).map fun f => (propertyText f).length).sum +
        4 * holesOfFields fields
  | [], _ => by simp [jsonFields, holesOfFields]
  | (key, v) :: fields, h => by
    by_cases hv : v = .undefined
    · subst hv
      rw [absentInFields] at h
      omega
    · rw [absentInFields_cons hv, Nat.add_eq_zero_iff] at h
      have hrest := length_jsonFields_texts fields h.2
      have hhead := length_json v h.1
      rw [jsonFields_cons hv, holesOfFields, canonicalFields_cons hv,
        canonicalFields_cons (json_ne_undefined hv)]
      simp only [List.map_cons, List.sum_cons, length_propertyText, hhead, hrest]
      omega
end

/-- An absent part changes the canonical text. -/
theorem canonicalText_json_iff {v : JsValue} (h : v ≠ .undefined) :
    canonicalText v = canonicalText v.json ↔ Complete v := by
  constructor
  · intro he
    have hq := quotes_json v
    rw [← he] at hq
    have ha : absentProperties v = 0 := by omega
    have hl := length_json v ha
    rw [← he] at hl
    exact (complete_iff v h).mpr ⟨ha, by omega⟩
  · intro hc
    rw [json_of_complete v hc]

/-! ## Values without absent parts -/

theorem printedItems_forall (items : List JsValue) :
    PrintedItems items ↔ ∀ v ∈ items, Printed v := by
  induction items with
  | nil => simp [PrintedItems]
  | cons v items ih => simp [PrintedItems, ih]

theorem printedFields_forall (fields : List (String × JsValue)) :
    PrintedFields fields ↔ ∀ f ∈ fields, Printed f.2 := by
  induction fields with
  | nil => simp [PrintedFields]
  | cons f fields ih => simp [PrintedFields, ih]

mutual
theorem printed_canonicalize : (v : JsValue) → Printed v → Printed (canonicalize v)
  | .undefined, h | .null, h | .bool _, h | .int _, h | .real _, h | .str _, h => by
    simpa [canonicalize] using h
  | .arr items, h => by
    rw [canonicalize, Printed]
    exact printedItems_canonicalize items h
  | .obj fields, h => by
    rw [canonicalize_obj]
    refine ⟨nodup_canonicalFieldsOf h.1, (printedFields_forall _).mpr ?_⟩
    intro f hf
    have hm := (perm_canonicalFieldsOf fields).mem_iff.mp hf
    exact (printedFields_forall _).mp (printedFields_canonicalize fields h.2) f hm

theorem printedItems_canonicalize :
    (items : List JsValue) → PrintedItems items → PrintedItems (canonicalizeItems items)
  | [], _ => trivial
  | v :: items, h => ⟨printed_canonicalize v h.1, printedItems_canonicalize items h.2⟩

theorem printedFields_canonicalize :
    (fields : List (String × JsValue)) → PrintedFields fields →
      PrintedFields (canonicalizeFields fields)
  | [], _ => trivial
  | (_, v) :: fields, h => ⟨printed_canonicalize v h.1, printedFields_canonicalize fields h.2⟩
end

/-- A property with its text. -/
def withText (f : String × JsValue) : String × List Char := (f.1, textOf f.2)

theorem stringifyFields_of_printed {fields : List (String × JsValue)}
    (h : PrintedFields fields) :
    stringifyFields fields = (fields.map withText).map propertyText := by
  induction fields with
  | nil => rfl
  | cons f fields ih =>
    obtain ⟨key, v⟩ := f
    rw [stringifyFields_cons h.1, ih h.2]
    rfl

theorem sorted_withText (fields : List (String × JsValue)) :
    ((fields.map withText).insertionSort fun x y => utf16Le x.1 y.1) =
      (fields.insertionSort fun x y => utf16Le x.1 y.1).map withText :=
  (List.map_insertionSort _ _ withText fields fun _ _ _ _ => Iff.rfl).symm

mutual
/-- The canonical text of a value is the JSON text of the value in its canonical order. -/
theorem canonicalText_eq : (v : JsValue) → Printed v → canonicalText v = textOf (canonicalize v)
  | .undefined, h => absurd h (by simp [Printed])
  | .bool b, _ => by
    cases b <;> simp [canonicalText, canonicalChars, canonicalize, textOf, stringifyChars]
  | .null, _ | .int _, _ | .real _, _ | .str _, _ => by
    simp [canonicalText, canonicalChars, canonicalize, textOf, stringifyChars]
  | .arr items, h => by
    rw [canonicalText_arr, canonicalize, canonicalItems_of_printed items h, textOf,
      stringifyChars]
    rfl
  | .obj fields, h => by
    have hsorted : PrintedFields (canonicalFieldsOf fields) :=
      (printed_canonicalize (.obj fields) h).2
    rw [canonicalText_obj, canonicalize_obj, textOf, stringifyChars,
      stringifyFields_of_printed hsorted, canonicalFields_of_printed fields h.2, sorted_withText]
    rfl

theorem canonicalItems_of_printed : (items : List JsValue) → PrintedItems items →
    canonicalItems items = stringifyItems (canonicalizeItems items)
  | [], _ => rfl
  | v :: items, h => by
    rw [canonicalizeItems, stringifyItems_cons (printed_canonicalize v h.1),
      ← canonicalItems_of_printed items h.2, ← canonicalText_eq v h.1]
    rfl

theorem canonicalFields_of_printed : (fields : List (String × JsValue)) →
    PrintedFields fields → canonicalFields fields = (canonicalizeFields fields).map withText
  | [], _ => rfl
  | (key, v) :: fields, h => by
    have hv : v ≠ .undefined := by
      rintro rfl
      exact absurd h.1 (by simp [Printed])
    rw [canonicalFields_cons hv, canonicalizeFields, List.map_cons,
      canonicalFields_of_printed fields h.2, canonicalText_eq v h.1]
    rfl
end

/-- Values with one canonical text are one value in the canonical order. -/
theorem canonicalText_eq_iff {v w : JsValue} (hv : Printed v) (hw : Printed w) :
    canonicalText v = canonicalText w ↔ canonicalize v = canonicalize w := by
  rw [canonicalText_eq v hv, canonicalText_eq w hw]
  constructor
  · intro h
    have hp := parseJson_textOf (printed_canonicalize v hv)
    rw [h, parseJson_textOf (printed_canonicalize w hw)] at hp
    exact (Option.some.inj hp).symm
  · exact congrArg textOf

/-! ## The canonical order -/

/-- Sorting by distinct keys forgets the order that the properties came in. -/
theorem sorted_eq_of_perm {fields fields' : List (String × JsValue)} (h : fields.Perm fields')
    (hn : (fields.map Prod.fst).Nodup) :
    (fields.insertionSort fun x y => utf16Le x.1 y.1) =
      fields'.insertionSort fun x y => utf16Le x.1 y.1 :=
  insertionSort_eq_of_perm_of_key Prod.fst h fun _ hx _ hy => List.inj_on_of_nodup_map hn hx hy

/-- Objects have one canonical form when each property of the one is a property of the other. -/
theorem canonicalize_obj_eq_iff {fields fields' : List (String × JsValue)}
    (hn : (fields.map Prod.fst).Nodup) :
    canonicalize (.obj fields) = canonicalize (.obj fields') ↔
      fields.length = fields'.length ∧ canonicalizeFields fields ⊆ canonicalizeFields fields' := by
  have hlength (fs : List (String × JsValue)) : (canonicalizeFields fs).length = fs.length := by
    rw [canonicalizeFields_eq, List.length_map]
  rw [← keys_canonicalizeFields] at hn
  rw [canonicalize_obj, canonicalize_obj, JsValue.obj.injEq]
  constructor
  · intro h
    have hp : (canonicalizeFields fields).Perm (canonicalizeFields fields') :=
      (perm_canonicalFieldsOf fields).symm.trans (h ▸ perm_canonicalFieldsOf fields')
    exact ⟨(hlength fields).symm.trans (hp.length_eq.trans (hlength fields')), hp.subset⟩
  · rintro ⟨hl, hsub⟩
    have hsubperm := List.subperm_of_subset (List.Nodup.of_map _ hn) hsub
    refine sorted_eq_of_perm (hsubperm.perm_of_length_le ?_) hn
    rw [hlength, hlength, hl]

mutual
/-- Values are the same up to the order of keys when their canonical forms are. -/
theorem sameJson_iff : (v : JsValue) → Printed v → ∀ w, Printed w →
    (SameJson v w ↔ canonicalize v = canonicalize w)
  | .undefined, h, _, _ => absurd h (by simp [Printed])
  | .null, _, w, _ | .bool _, _, w, _ | .int _, _, w, _ | .real _, _, w, _ | .str _, _, w, _ => by
    cases w <;> simp [SameJson, canonicalize]
  | .arr items, h, w, hw => by
    cases w with
    | arr items' =>
      simp only [SameJson, canonicalize, arr.injEq, sameItems_iff_canonical items h items' hw]
    | _ => simp [SameJson, canonicalize]
  | .obj fields, h, w, hw => by
    cases w with
    | obj fields' =>
      rw [SameJson, canonicalize_obj_eq_iff h.1, sameFields_iff_canonical fields h.2 fields' hw.2]
    | _ => simp [SameJson, canonicalize]

theorem sameItems_iff_canonical : (items : List JsValue) → PrintedItems items →
    ∀ items', PrintedItems items' →
      (SameItems items items' ↔ canonicalizeItems items = canonicalizeItems items')
  | [], _, items', _ => by cases items' <;> simp [SameItems, canonicalizeItems]
  | v :: items, h, items', h' => by
    cases items' with
    | nil => simp [SameItems, canonicalizeItems]
    | cons w items' =>
      simp only [SameItems, canonicalizeItems, List.cons.injEq, sameJson_iff v h.1 w h'.1,
        sameItems_iff_canonical items h.2 items' h'.2]

theorem sameFields_iff_canonical : (fields : List (String × JsValue)) → PrintedFields fields →
    ∀ fields', PrintedFields fields' →
      (SameFields fields fields' ↔ canonicalizeFields fields ⊆ canonicalizeFields fields')
  | [], _, fields', _ => by simp [SameFields, canonicalizeFields]
  | (key, v) :: fields, h, fields', h' => by
    have hhead : (∃ w, (key, w) ∈ fields' ∧ SameJson v w) ↔
        (key, canonicalize v) ∈ canonicalizeFields fields' := by
      rw [canonicalizeFields_eq, List.mem_map]
      constructor
      · rintro ⟨w, hw, hs⟩
        have hp : Printed w := (printedFields_forall fields').mp h' (key, w) hw
        exact ⟨(key, w), hw, by rw [(sameJson_iff v h.1 w hp).mp hs]⟩
      · rintro ⟨⟨k, w⟩, hw, he⟩
        have hp : Printed w := (printedFields_forall fields').mp h' (k, w) hw
        obtain ⟨rfl, hc⟩ := Prod.mk.inj he
        exact ⟨w, hw, (sameJson_iff v h.1 w hp).mpr hc.symm⟩
    rw [SameFields, canonicalizeFields, List.cons_subset, hhead,
      sameFields_iff_canonical fields h.2 fields' h']
end

/-! ## The identity -/

/-- A payload has a hash, the digest of its canonical text. -/
theorem canonicalPayloadHash_eq (P : Platform) {v : JsValue} (h : v ≠ .undefined) :
    canonicalPayloadHash P v = some (P.sha256Hex (utf8Encode (canonicalText v))) := by
  rw [canonicalPayloadHash, canonicalChars_of_present h]
  rfl

theorem canonicalPayloadHash_eq_iff {P : Platform} (hsha : Function.Injective P.sha256Hex)
    {v w : JsValue} (hv : v ≠ .undefined) (hw : w ≠ .undefined) :
    canonicalPayloadHash P v = canonicalPayloadHash P w ↔ canonicalText v = canonicalText w := by
  rw [canonicalPayloadHash_eq P hv, canonicalPayloadHash_eq P hw, Option.some.injEq, hsha.eq_iff]
  constructor
  · intro h
    have hs : utf8Bytes (String.ofList (canonicalText v)) =
        utf8Bytes (String.ofList (canonicalText w)) := by
      rwa [utf8Bytes, utf8Bytes, String.toList_ofList, String.toList_ofList]
    exact String.ofList_injective (utf8Bytes_injective hs)
  · exact congrArg utf8Encode

/-- The hash of a payload survives being stored exactly if no part of the payload is absent. -/
theorem hash_readBack_iff {P : Platform} (hsha : Function.Injective P.sha256Hex) {v : JsValue}
    (h : Payload v) :
    canonicalPayloadHash P v = (readBack v).bind (canonicalPayloadHash P) ↔ Complete v := by
  rw [readBack_eq h, Option.bind_some,
    canonicalPayloadHash_eq_iff hsha h.present (json_ne_undefined h.present),
    canonicalText_json_iff h.present]

theorem hash_eq_iff_of_complete {P : Platform} (hsha : Function.Injective P.sha256Hex)
    {v w : JsValue} (hv : Payload v) (hw : Payload w) (hcv : Complete v) (hcw : Complete w) :
    canonicalPayloadHash P v = canonicalPayloadHash P w ↔ SameSerialization v w := by
  have hpv : Printed v := (printed_iff v).mpr ⟨hv.legal, hcv⟩
  have hpw : Printed w := (printed_iff w).mpr ⟨hw.legal, hcw⟩
  rw [canonicalPayloadHash_eq_iff hsha hv.present hw.present, canonicalText_eq_iff hpv hpw,
    ← sameJson_iff v hpv w hpw, SameSerialization, readBack_eq hv, readBack_eq hw,
    json_of_complete v hcv, json_of_complete w hcw]
  simp

/-- Two payloads are hashed as the JSON values that are stored of them exactly if neither has an
absent part. -/
theorem payload_hash_identifies_iff {P : Platform} (hsha : Function.Injective P.sha256Hex)
    {v w : JsValue} (hv : Payload v) (hw : Payload w) :
    ((canonicalPayloadHash P v = canonicalPayloadHash P w ↔ SameSerialization v w) ∧
      canonicalPayloadHash P v = (readBack v).bind (canonicalPayloadHash P) ∧
      canonicalPayloadHash P w = (readBack w).bind (canonicalPayloadHash P)) ↔
    Complete v ∧ Complete w := by
  rw [hash_readBack_iff hsha hv, hash_readBack_iff hsha hw]
  constructor
  · exact And.right
  · rintro ⟨hcv, hcw⟩
    exact ⟨hash_eq_iff_of_complete hsha hv hw hcv hcw, hcv, hcw⟩

/-- Digests that are told apart by the texts themselves. -/
def plainPlatform : Platform where
  sha256Hex := plainText
  sha256Base64url := plainText
  newUrl _ := none
  bindText _ := none

/-- A blocked completion whose optional error code is present without a value. -/
def blockedCompletion : JsValue := .obj [("jobId", .str "j"), ("runId", .str "r"),
  ("status", .str "blocked"), ("errorCode", .undefined)]

theorem payload_blockedCompletion : Payload blockedCompletion := by
  refine ⟨?_, by simp [blockedCompletion]⟩
  simp [blockedCompletion, Legal, LegalFields]

theorem payload_hash_identifies_blocked :
    Function.Injective plainPlatform.sha256Hex ∧ Payload blockedCompletion ∧
    (((canonicalPayloadHash plainPlatform blockedCompletion =
          canonicalPayloadHash plainPlatform blockedCompletion ↔
        SameSerialization blockedCompletion blockedCompletion) ∧
      canonicalPayloadHash plainPlatform blockedCompletion =
        (readBack blockedCompletion).bind (canonicalPayloadHash plainPlatform) ∧
      canonicalPayloadHash plainPlatform blockedCompletion =
        (readBack blockedCompletion).bind (canonicalPayloadHash plainPlatform)) ↔
    Complete blockedCompletion ∧ Complete blockedCompletion) :=
  ⟨plainText_injective, payload_blockedCompletion,
    payload_hash_identifies_iff (P := plainPlatform) plainText_injective
      payload_blockedCompletion payload_blockedCompletion⟩

/-- The completion that is read back has another hash, and an array with an absent entry has the
hash of the empty array. -/
theorem absent_parts_change_identity :
    Payload blockedCompletion ∧
    canonicalPayloadHash plainPlatform blockedCompletion ≠
      (readBack blockedCompletion).bind (canonicalPayloadHash plainPlatform) ∧
    canonicalPayloadHash plainPlatform (.arr [.undefined]) =
      canonicalPayloadHash plainPlatform (.arr []) ∧
    ¬ SameSerialization (.arr [.undefined]) (.arr []) := by
  refine ⟨payload_blockedCompletion, ?_, rfl, ?_⟩
  · rw [ne_eq, hash_readBack_iff plainText_injective payload_blockedCompletion]
    simp [blockedCompletion, Complete, CompleteFields]
  · rintro ⟨v, w, hv, hw, hs⟩
    have hread : readBack (.arr [.undefined]) = some (.arr [.null]) := by decide
    have hempty : readBack (.arr []) = some (.arr []) := by decide
    obtain rfl := Option.some.inj (hread.symm.trans hv)
    obtain rfl := Option.some.inj (hempty.symm.trans hw)
    simp [SameJson, SameItems] at hs

end Qualigence.Protocol
