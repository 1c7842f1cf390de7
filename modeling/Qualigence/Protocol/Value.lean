import Mathlib.Data.List.Lex
import Mathlib.Data.List.Sort

/-! # JSON values and canonical payload hashes

The dynamic values that jobs, completions and trace payloads are parsed from and stored
as. A property that is absent reads as `undefined`, strings have UTF-16 lengths and are
ordered by UTF-16 code units, and the canonical text of a value sorts its keys.
-/

namespace Qualigence.Protocol

/-- A value as `JSON.parse` and object literals produce it. An object lists its properties
once each; a number that is no integer is kept as its shortest decimal text. -/
inductive JsValue where
  | undefined
  | null
  | bool (b : Bool)
  | int (n : Int)
  | real (text : String)
  | str (s : String)
  | arr (items : List JsValue)
  | obj (fields : List (String × JsValue))

/-- The parts of a parsed URL that are looked at. -/
structure Url where
  protocol : String
  username : String
  password : String
  origin : String

/-- What Core uses of the environment it runs in: the SHA-256 digests of
`node:crypto`, in two encodings, the parser behind `new URL`, which fails on a text that
is no URL, and the text that the database driver stores a value as in a text column,
which fails on a value that cannot be bound or is `null`. -/
structure Platform where
  sha256Hex : List UInt8 → String
  sha256Base64url : List UInt8 → String
  newUrl : String → Option Url
  bindText : JsValue → Option String

/-- The bytes of a text that is hashed, character by character. -/
def utf8Encode (chars : List Char) : List UInt8 := chars.flatMap String.utf8EncodeChar

def utf8Bytes (s : String) : List UInt8 := utf8Encode s.toList

theorem utf8Bytes_injective : Function.Injective utf8Bytes := by
  intro s t h
  have hb : s.toList.utf8Encode = t.toList.utf8Encode := congrArg List.toByteArray h
  rw [← String.toByteArray_ofList, ← String.toByteArray_ofList, String.ofList_toList,
    String.ofList_toList] at hb
  exact String.toByteArray_inj.mp hb

/-- `createHash("sha256").update(text, "utf8").digest("hex")`. -/
def Platform.sha256 (P : Platform) (text : String) : String := P.sha256Hex (utf8Bytes text)

/-- The UTF-16 code units of a text. -/
def utf16 (s : String) : List ℕ :=
  s.toList.flatMap fun c =>
    if c.toNat < 0x10000 then [c.toNat]
    else [0xD800 + (c.toNat - 0x10000) / 0x400, 0xDC00 + (c.toNat - 0x10000) % 0x400]

/-- `text.length`. -/
def jsLength (s : String) : ℕ := (utf16 s).length

/-- The order in which `sort` leaves texts. -/
def utf16Le (s t : String) : Bool := decide (utf16 s ≤ utf16 t)

/-- The characters that `trim` removes and `\s` matches. -/
def isJsSpace (c : Char) : Bool :=
  (0x9 ≤ c.toNat ∧ c.toNat ≤ 0xD) ∨ c.toNat ∈ [0x20, 0xA0, 0x1680, 0x2028, 0x2029, 0x202F,
    0x205F, 0x3000, 0xFEFF] ∨ (0x2000 ≤ c.toNat ∧ c.toNat ≤ 0x200A)

/-- `text.trim().length === 0`. -/
def isBlank (s : String) : Bool := s.toList.all isJsSpace

namespace JsValue

/-- Property access on an object. -/
def field (key : String) : List (String × JsValue) → JsValue
  | [] => undefined
  | (k, v) :: fields => if k = key then v else field key fields

/-- A string that is left out when it is absent. -/
def optional (key : String) : Option JsValue → List (String × JsValue)
  | none => []
  | some v => [(key, v)]

@[simp] theorem field_cons (key k : String) (v : JsValue) (fields : List (String × JsValue)) :
    field key ((k, v) :: fields) = if k = key then v else field key fields := rfl

mutual
/-- What `JSON.parse(JSON.stringify(value))` gives for a value other than `undefined`:
absent properties are dropped, and absent entries of an array become `null`. -/
def json : JsValue → JsValue
  | .arr items => .arr (jsonItems items)
  | .obj fields => .obj (jsonFields fields)
  | v => v

def jsonItems : List JsValue → List JsValue
  | [] => []
  | .undefined :: items => .null :: jsonItems items
  | v :: items => v.json :: jsonItems items

def jsonFields : List (String × JsValue) → List (String × JsValue)
  | [] => []
  | (_, .undefined) :: fields => jsonFields fields
  | (key, v) :: fields => (key, v.json) :: jsonFields fields
end

mutual
/-- A value that went through its text once does not change any more. -/
theorem json_json : (v : JsValue) → v.json.json = v.json
  | .undefined | .null | .bool _ | .int _ | .real _ | .str _ => by simp [json]
  | .arr items => by simp [json, jsonItems_jsonItems items]
  | .obj fields => by simp [json, jsonFields_jsonFields fields]

theorem jsonItems_jsonItems :
    (items : List JsValue) → jsonItems (jsonItems items) = jsonItems items
  | [] => by simp [jsonItems]
  | v :: items => by
    have hi := jsonItems_jsonItems items
    have hv := json_json v
    cases v <;> simp_all [jsonItems, json]

theorem jsonFields_jsonFields :
    (fields : List (String × JsValue)) → jsonFields (jsonFields fields) = jsonFields fields
  | [] => by simp [jsonFields]
  | (key, v) :: fields => by
    have hf := jsonFields_jsonFields fields
    have hv := json_json v
    cases v <;> simp_all [jsonFields, json]
end

theorem json_ne_undefined {v : JsValue} (h : v ≠ .undefined) : v.json ≠ .undefined := by
  cases v <;> simp_all [json]

mutual
/-- Equality of values as a test. -/
def same : JsValue → JsValue → Bool
  | .undefined, .undefined | .null, .null => true
  | .bool a, .bool b => a = b
  | .int a, .int b => a = b
  | .real a, .real b | .str a, .str b => a = b
  | .arr xs, .arr ys => sameItems xs ys
  | .obj xs, .obj ys => sameFields xs ys
  | _, _ => false

def sameItems : List JsValue → List JsValue → Bool
  | [], [] => true
  | x :: xs, y :: ys => same x y && sameItems xs ys
  | _, _ => false

def sameFields : List (String × JsValue) → List (String × JsValue) → Bool
  | [], [] => true
  | (k, x) :: xs, (l, y) :: ys => k = l && same x y && sameFields xs ys
  | _, _ => false
end

mutual
theorem same_iff : (v w : JsValue) → (same v w ↔ v = w)
  | .undefined, w | .null, w | .bool _, w | .int _, w | .real _, w | .str _, w => by
    cases w <;> simp [same]
  | .arr xs, w => by
    cases w with
    | arr ys => simp [same, sameItems_iff xs ys]
    | _ => simp [same]
  | .obj xs, w => by
    cases w with
    | obj ys => simp [same, sameFields_iff xs ys]
    | _ => simp [same]

theorem sameItems_iff : (xs ys : List JsValue) → (sameItems xs ys ↔ xs = ys)
  | [], ys => by cases ys <;> simp [sameItems]
  | x :: xs, ys => by
    cases ys with
    | nil => simp [sameItems]
    | cons y ys => simp [sameItems, same_iff x y, sameItems_iff xs ys]

theorem sameFields_iff : (xs ys : List (String × JsValue)) → (sameFields xs ys ↔ xs = ys)
  | [], ys => by cases ys <;> simp [sameFields]
  | (k, x) :: xs, ys => by
    cases ys with
    | nil => simp [sameFields]
    | cons y ys => simp [sameFields, same_iff x y.2, sameFields_iff xs ys, Prod.ext_iff]
end

instance : DecidableEq JsValue := fun v w => decidable_of_iff (same v w) (same_iff v w)

end JsValue

/-- A code unit below 0x20 without a short escape. -/
def unicodeEscape (n : ℕ) : List Char :=
  ['\\', 'u', '0', '0', Nat.digitChar (n / 16), Nat.digitChar (n % 16)]

/-- One character inside a JSON string. -/
def escapeChar (c : Char) : List Char :=
  match c.toNat with
  | 0x22 => ['\\', '\"']
  | 0x5C => ['\\', '\\']
  | 0x08 => ['\\', 'b']
  | 0x09 => ['\\', 't']
  | 0x0A => ['\\', 'n']
  | 0x0C => ['\\', 'f']
  | 0x0D => ['\\', 'r']
  | n => if n < 0x20 then unicodeEscape n else [c]

/-- The characters of `JSON.stringify` of a string. -/
def quote (s : String) : List Char := '\"' :: s.toList.flatMap escapeChar ++ ['\"']

/-- Texts with a comma between them. -/
def joinComma (texts : List (List Char)) : List Char := [','].intercalate texts

mutual
/-- The characters of the canonical text of a value; `undefined` has none. -/
def canonicalChars : JsValue → Option (List Char)
  | .undefined => none
  | .null => some ['n', 'u', 'l', 'l']
  | .bool true => some ['t', 'r', 'u', 'e']
  | .bool false => some ['f', 'a', 'l', 's', 'e']
  | .int n => some (toString n).toList
  | .real text => some text.toList
  | .str s => some (quote s)
  | .arr items => some ('[' :: joinComma (canonicalItems items) ++ [']'])
  | .obj fields => some ('{' :: joinComma
      (((canonicalFields fields).insertionSort fun x y => utf16Le x.1 y.1).map
        fun x => quote x.1 ++ ':' :: x.2) ++ ['}'])

/-- The texts of the entries of an array; `join` writes an entry without text as nothing. -/
def canonicalItems : List JsValue → List (List Char)
  | [] => []
  | item :: items => (canonicalChars item).getD [] :: canonicalItems items

/-- The properties of an object with the texts a template literal gives their values. -/
def canonicalFields : List (String × JsValue) → List (String × List Char)
  | [] => []
  | (key, value) :: fields =>
    (key, (canonicalChars value).getD "undefined".toList) :: canonicalFields fields
end

/-- The digest of the canonical text. Without a text, `update` raises a `TypeError`. -/
def canonicalPayloadHash (P : Platform) (payload : JsValue) : Option String :=
  (canonicalChars payload).map fun text => P.sha256Hex (utf8Encode text)

example : canonicalChars (.obj [("b", .int 1), ("a", .arr [.undefined, .str "x\n"])]) =
    some "\x7b\"a\":[,\"x\\n\"],\"b\":1\x7d".toList := by decide

/-! ## Digests of given texts -/

/-- A text for every list of bytes, none of them a digest. -/
def plainText (bytes : List UInt8) : String := String.ofList ('x' :: bytes.map Char.ofUInt8)

theorem plainText_injective : Function.Injective plainText := by
  intro a b h
  have hl := List.cons.inj (String.ofList_injective h)
  refine List.map_injective_iff.mpr ?_ hl.2
  intro x y hxy
  have hv : x.toUInt32 = y.toUInt32 := congrArg Char.val hxy
  exact UInt8.toUInt32_inj.mp hv

theorem plainText_head (bytes : List UInt8) : (plainText bytes).toList.head? = some 'x' := by
  unfold plainText
  rw [String.toList_ofList]
  rfl

/-- The digests of known texts, and a text of its own for any other. -/
def digestOf (known : List (List Char × String)) (bytes : List UInt8) : String :=
  ((known.find? fun e => utf8Encode e.1 = bytes).map (·.2)).getD (plainText bytes)

theorem digestOf_injective {known : List (List Char × String)}
    (hnodup : (known.map (·.2)).Nodup) (hx : ∀ e ∈ known, e.2.toList.head? ≠ some 'x') :
    Function.Injective (digestOf known) := by
  intro a b h
  unfold digestOf at h
  cases ha : known.find? fun e => utf8Encode e.1 = a with
  | none =>
    cases hb : known.find? fun e => utf8Encode e.1 = b with
    | none =>
      rw [ha, hb] at h
      exact plainText_injective h
    | some e =>
      rw [ha, hb] at h
      have hh := congrArg (fun s : String => s.toList.head?) h
      exact absurd (hh.symm.trans (plainText_head a)) (hx e (List.mem_of_find?_eq_some hb))
  | some d =>
    have hda : utf8Encode d.1 = a := by simpa using List.find?_some ha
    cases hb : known.find? fun e => utf8Encode e.1 = b with
    | none =>
      rw [ha, hb] at h
      have hh := congrArg (fun s : String => s.toList.head?) h
      exact absurd (hh.trans (plainText_head b)) (hx d (List.mem_of_find?_eq_some ha))
    | some e =>
      rw [ha, hb] at h
      have heb : utf8Encode e.1 = b := by simpa using List.find?_some hb
      have hde : d = e := List.inj_on_of_nodup_map hnodup (List.mem_of_find?_eq_some ha)
        (List.mem_of_find?_eq_some hb) h
      rw [← hda, ← heb, hde]

end Qualigence.Protocol
