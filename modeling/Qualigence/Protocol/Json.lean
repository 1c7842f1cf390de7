import Qualigence.Protocol.Value

/-! # JSON texts

The text that `JSON.stringify` gives a value, in the order of its properties, and the
canonical text of planning, which sorts the keys of every object first.
-/

namespace Qualigence.Protocol

mutual
/-- The characters of `JSON.stringify`; `undefined` has none. -/
def stringifyChars : JsValue → Option (List Char)
  | .undefined => none
  | .null => some ['n', 'u', 'l', 'l']
  | .bool true => some ['t', 'r', 'u', 'e']
  | .bool false => some ['f', 'a', 'l', 's', 'e']
  | .int n => some (toString n).toList
  | .real text => some text.toList
  | .str s => some (quote s)
  | .arr items => some ('[' :: joinComma (stringifyItems items) ++ [']'])
  | .obj fields => some ('{' :: joinComma (stringifyFields fields) ++ ['}'])

def stringifyItems : List JsValue → List (List Char)
  | [] => []
  | item :: items =>
    (stringifyChars item).getD ['n', 'u', 'l', 'l'] :: stringifyItems items

def stringifyFields : List (String × JsValue) → List (List Char)
  | [] => []
  | (key, value) :: fields =>
    match stringifyChars value with
    | some text => (quote key ++ ':' :: text) :: stringifyFields fields
    | none => stringifyFields fields
end

mutual
/-- Recursively sort the keys of objects. -/
def canonicalize : JsValue → JsValue
  | .arr items => .arr (canonicalizeItems items)
  | .obj fields =>
    .obj ((canonicalizeFields fields).insertionSort fun x y => utf16Le x.1 y.1)
  | v => v

def canonicalizeItems : List JsValue → List JsValue
  | [] => []
  | item :: items => canonicalize item :: canonicalizeItems items

def canonicalizeFields : List (String × JsValue) → List (String × JsValue)
  | [] => []
  | (key, value) :: fields => (key, canonicalize value) :: canonicalizeFields fields
end

/-- The digest of the text of a value other than `undefined`. -/
def Platform.hashText (P : Platform) (value : JsValue) : String :=
  P.sha256Hex (utf8Encode ((stringifyChars value).getD []))

/-- `sha256Hex(canonicalJson(value))`. -/
def Platform.hashCanonical (P : Platform) (value : JsValue) : String :=
  P.hashText (canonicalize value)

example : stringifyChars (.obj [("b", .int 1), ("c", .undefined), ("a", .arr [.undefined])]) =
    some "\x7b\"b\":1,\"a\":[null]\x7d".toList := by decide

end Qualigence.Protocol
