import Mathlib.Algebra.Group.Int.Defs
import Qualigence.Protocol.Value

/-! # Protobuf messages

What an object is after it was encoded as a message of a schema and decoded again. Every
field keeps its value within its declared type, an unset field and an empty list stay
absent, properties without a field are dropped, and a decoded message names the member
that is set of each `oneof`.
-/

namespace Qualigence.Protocol.Protobuf

/-- What encoding and decoding makes of a value of a type. -/
abbrev WireType := JsValue → JsValue

def string : WireType := id
def bool : WireType := id

/-- An unsigned integer of the given width. -/
def uint (width : ℕ) : WireType
  | .int n => .int (n % 2 ^ width)
  | v => v

def uint32 : WireType := uint 32
def uint64 : WireType := uint 64

/-- A field is set at most once or any number of times. -/
inductive FieldType where
  | singular (type : WireType)
  | repeated (type : WireType)

/-- What arrives of a field; nothing when it is not set. -/
def FieldType.carry : FieldType → JsValue → Option JsValue
  | _, .undefined | _, .null => none
  | singular type, v => some (type v)
  | repeated _, .arr [] => none
  | repeated type, .arr (item :: items) => some (.arr ((item :: items).map type))
  | repeated _, v => some v

/-- The fields of a message that are set. -/
def carryFields (fields : List (String × FieldType)) (props : List (String × JsValue)) :
    List (String × JsValue) :=
  fields.flatMap fun f => JsValue.optional f.1 (f.2.carry (JsValue.field f.1 props))

def message (fields : List (String × FieldType)) : WireType
  | .obj props => .obj (carryFields fields props)
  | v => v

/-- The member of a `oneof` that is set; the last one wins. -/
def selected (members : List (String × FieldType)) (props : List (String × JsValue)) :
    List (String × FieldType) :=
  ((members.filter fun f => (f.2.carry (JsValue.field f.1 props)).isSome).getLast?).toList

/-- A message with a `oneof` of the given name beside its fields. -/
def messageOneof (fields : List (String × FieldType)) (oneof : String)
    (members : List (String × FieldType)) : WireType
  | .obj props =>
    let member := selected members props
    .obj (carryFields (fields ++ member) props ++ member.map fun f => (oneof, .str f.1))
  | v => v

section Oneof

variable {fields members : List (String × FieldType)} {props : List (String × JsValue)}
  {f : String × FieldType}

/-- A member that is set alone is the selected one. -/
theorem selected_eq (hf : f ∈ members) (hnodup : (members.map (·.1)).Nodup)
    (hset : (f.2.carry (JsValue.field f.1 props)).isSome)
    (hunset : ∀ g ∈ members, g.1 ≠ f.1 → JsValue.field g.1 props = .undefined) :
    selected members props = [f] := by
  have hskip : ∀ g ∈ members, g.1 ≠ f.1 →
      ¬ (g.2.carry (JsValue.field g.1 props)).isSome = true := by
    intro g hg hne
    rw [hunset g hg hne]
    cases g.2 <;> exact Bool.false_ne_true
  clear hunset
  have hfilter : members.filter (fun g => (g.2.carry (JsValue.field g.1 props)).isSome) = [f] := by
    induction members with
    | nil => cases hf
    | cons g members ih =>
      obtain ⟨hnot, hnd⟩ := List.nodup_cons.mp hnodup
      have hrest := fun g' hg' => hskip g' (List.mem_cons_of_mem _ hg')
      have hname : ∀ g' ∈ members, g'.1 ≠ g.1 := by
        intro g' hg' he
        exact hnot (List.mem_map.mpr ⟨g', hg', he⟩)
      rcases List.mem_cons.mp hf with rfl | hf'
      · rw [List.filter_cons, if_pos hset,
          List.filter_eq_nil_iff.mpr fun g' hg' => hrest g' hg' (hname g' hg')]
      · rw [List.filter_cons, if_neg (hskip g List.mem_cons_self (hname f hf').symm),
          ih hf' hnd hrest]
  unfold selected
  rw [hfilter]
  rfl

theorem messageOneof_eq {oneof : String} {v : JsValue} (hs : selected members props = [f])
    (hv : f.2.carry (JsValue.field f.1 props) = some v) :
    messageOneof fields oneof members (.obj props) =
      .obj (carryFields fields props ++ [(f.1, v), (oneof, .str f.1)]) := by
  unfold messageOneof carryFields
  dsimp only
  rw [hs, List.flatMap_append, List.flatMap_singleton, hv, List.append_assoc]
  rfl

end Oneof

end Qualigence.Protocol.Protobuf
