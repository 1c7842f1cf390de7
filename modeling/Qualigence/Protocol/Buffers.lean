import Qualigence.Protocol.Value

/-! # Texts and bytes

The conversions between texts and bytes that `Buffer` makes: base64, and the text of bytes in
UTF-8. Base64 is decoded leniently, so that many texts have the same bytes.
-/

namespace Qualigence.Protocol

/-! ## Base64 -/

def base64Digit (n : ℕ) : Char :=
  if n < 26 then Char.ofNat (65 + n)
  else if n < 52 then Char.ofNat (71 + n)
  else if n < 62 then Char.ofNat (n - 4)
  else if n = 62 then '+'
  else '/'

/-- The value of a digit of either alphabet. -/
def base64Value (c : Char) : Option ℕ :=
  if 65 ≤ c.toNat ∧ c.toNat ≤ 90 then some (c.toNat - 65)
  else if 97 ≤ c.toNat ∧ c.toNat ≤ 122 then some (c.toNat - 71)
  else if c.isDigit then some (c.toNat + 4)
  else if c = '+' ∨ c = '-' then some 62
  else if c = '/' ∨ c = '_' then some 63
  else none

def base64Chars : List UInt8 → List Char
  | [] => []
  | [a] => [base64Digit (a.toNat / 4), base64Digit (a.toNat % 4 * 16), '=', '=']
  | [a, b] =>
    [base64Digit (a.toNat / 4), base64Digit (a.toNat % 4 * 16 + b.toNat / 16),
      base64Digit (b.toNat % 16 * 4), '=']
  | a :: b :: c :: bytes =>
    base64Digit (a.toNat / 4) :: base64Digit (a.toNat % 4 * 16 + b.toNat / 16) ::
      base64Digit (b.toNat % 16 * 4 + c.toNat / 64) :: base64Digit (c.toNat % 64) ::
        base64Chars bytes

/-- `buffer.toString("base64")`. -/
def toBase64 (bytes : List UInt8) : String := String.ofList (base64Chars bytes)

/-- The whole bytes in a sequence of six-bit values. -/
def bytesOfSextets : List ℕ → List UInt8
  | a :: b :: c :: d :: values =>
    UInt8.ofNat (a * 4 + b / 16) :: UInt8.ofNat (b % 16 * 16 + c / 4) ::
      UInt8.ofNat (c % 4 * 64 + d) :: bytesOfSextets values
  | [a, b, c] => [UInt8.ofNat (a * 4 + b / 16), UInt8.ofNat (b % 16 * 16 + c / 4)]
  | [a, b] => [UInt8.ofNat (a * 4 + b / 16)]
  | _ => []

/-- `Buffer.from(text, "base64")`: up to the padding, without the characters that are no digits. -/
def fromBase64 (text : String) : List UInt8 :=
  bytesOfSextets ((text.toList.takeWhile (· ≠ '=')).filterMap base64Value)

theorem base64Value_digit : ∀ n < 64, base64Value (base64Digit n) = some n := by decide

theorem base64Digit_ne : ∀ n < 64, base64Digit n ≠ '=' := by decide

/-- The six-bit values of a text of digits and its padding. -/
def sextets (text : List Char) : List ℕ := (text.takeWhile (· ≠ '=')).filterMap base64Value

theorem sextets_cons {n : ℕ} (hn : n < 64) (text : List Char) :
    sextets (base64Digit n :: text) = n :: sextets text := by
  rw [sextets, List.takeWhile_cons_of_pos (by simpa using base64Digit_ne n hn),
    List.filterMap_cons_some (base64Value_digit n hn)]
  rfl

theorem sextets_padding (text : List Char) : sextets ('=' :: text) = [] := rfl

theorem bytesOfSextets_base64Chars (bytes : List UInt8) :
    bytesOfSextets (sextets (base64Chars bytes)) = bytes := by
  induction bytes using base64Chars.induct with
  | case1 => rfl
  | case2 a =>
    have ha := a.toNat_lt
    have he : a.toNat / 4 * 4 + a.toNat % 4 * 16 / 16 = a.toNat := by omega
    rw [base64Chars, sextets_cons (by omega), sextets_cons (by omega), sextets_padding,
      bytesOfSextets, he, UInt8.ofNat_toNat]
  | case3 a b =>
    have ha := a.toNat_lt
    have hb := b.toNat_lt
    have he : a.toNat / 4 * 4 + (a.toNat % 4 * 16 + b.toNat / 16) / 16 = a.toNat := by omega
    have he' : (a.toNat % 4 * 16 + b.toNat / 16) % 16 * 16 + b.toNat % 16 * 4 / 4 = b.toNat := by
      omega
    rw [base64Chars, sextets_cons (by omega), sextets_cons (by omega), sextets_cons (by omega),
      sextets_padding, bytesOfSextets, he, he', UInt8.ofNat_toNat, UInt8.ofNat_toNat]
  | case4 a b c bytes ih =>
    have ha := a.toNat_lt
    have hb := b.toNat_lt
    have hc := c.toNat_lt
    have he : a.toNat / 4 * 4 + (a.toNat % 4 * 16 + b.toNat / 16) / 16 = a.toNat := by omega
    have he' : (a.toNat % 4 * 16 + b.toNat / 16) % 16 * 16 +
        (b.toNat % 16 * 4 + c.toNat / 64) / 4 = b.toNat := by omega
    have he'' : (b.toNat % 16 * 4 + c.toNat / 64) % 4 * 64 + c.toNat % 64 = c.toNat := by omega
    rw [base64Chars, sextets_cons (by omega), sextets_cons (by omega), sextets_cons (by omega),
      sextets_cons (by omega), bytesOfSextets, he, he', he'', ih, UInt8.ofNat_toNat,
      UInt8.ofNat_toNat, UInt8.ofNat_toNat]

/-- Bytes are read back from their base64 text. -/
@[simp] theorem fromBase64_toBase64 (bytes : List UInt8) : fromBase64 (toBase64 bytes) = bytes := by
  rw [fromBase64, toBase64, String.toList_ofList]
  exact bytesOfSextets_base64Chars bytes

/-! ## UTF-8 -/

/-- What a first byte announces: the number of bytes after it, the range of the second byte and
the bits it gives itself. -/
def utf8Lead (b : ℕ) : Option (ℕ × ℕ × ℕ × ℕ) :=
  if 0xC2 ≤ b ∧ b ≤ 0xDF then some (1, 0x80, 0xBF, b - 0xC0)
  else if b = 0xE0 then some (2, 0xA0, 0xBF, 0)
  else if b = 0xED then some (2, 0x80, 0x9F, 0xD)
  else if 0xE1 ≤ b ∧ b ≤ 0xEF then some (2, 0x80, 0xBF, b - 0xE0)
  else if b = 0xF0 then some (3, 0x90, 0xBF, 0)
  else if 0xF1 ≤ b ∧ b ≤ 0xF3 then some (3, 0x80, 0xBF, b - 0xF0)
  else if b = 0xF4 then some (3, 0x80, 0x8F, 4)
  else none

/-- The bytes after the first one, as far as they are in range. -/
def utf8Continue : (needed low high value : ℕ) → List UInt8 → Option Char × List UInt8
  | 0, _, _, value, bytes => (some (Char.ofNat value), bytes)
  | _ + 1, _, _, _, [] => (none, [])
  | needed + 1, low, high, value, b :: bytes =>
    if low ≤ b.toNat ∧ b.toNat ≤ high then
      utf8Continue needed 0x80 0xBF (value * 64 + (b.toNat - 0x80)) bytes
    else (none, b :: bytes)

/-- The text of bytes of which some are no UTF-8: each part that is none is replaced. -/
def utf8Replace : ℕ → List UInt8 → List Char
  | 0, _ => []
  | _ + 1, [] => []
  | fuel + 1, b :: bytes =>
    if b.toNat < 0x80 then Char.ofNat b.toNat :: utf8Replace fuel bytes
    else match utf8Lead b.toNat with
      | none => Char.ofNat 0xFFFD :: utf8Replace fuel bytes
      | some (needed, low, high, value) =>
        let (c, rest) := utf8Continue needed low high value bytes
        c.getD (Char.ofNat 0xFFFD) :: utf8Replace fuel rest

/-- `buffer.toString("utf8")`. -/
def utf8Decode (bytes : List UInt8) : List Char :=
  match bytes.toByteArray.utf8Decode? with
  | some chars => chars.toList
  | none => utf8Replace bytes.length bytes

/-- A text is read back from its bytes. -/
@[simp] theorem utf8Decode_utf8Encode (chars : List Char) :
    utf8Decode (utf8Encode chars) = chars := by
  have hb : (utf8Encode chars).toByteArray = chars.utf8Encode := rfl
  rw [utf8Decode, hb, List.utf8Decode?_utf8Encode]

end Qualigence.Protocol
