import Qualigence.Protocol.Json

/-! # Reading JSON texts

The grammar that `JSON.parse` reads. What `JSON.stringify` wrote for a value without absent parts
is read back as the value, so that two values have two texts.
-/

namespace Qualigence.Protocol

/-! ## The grammar -/

def isJsonSpace (c : Char) : Bool := c = ' ' || c = '\t' || c = '\n' || c = '\r'

def skipSpace (cs : List Char) : List Char := cs.dropWhile isJsonSpace

def hexValue (c : Char) : Option ℕ :=
  if c.isDigit then some (c.toNat - 48)
  else if 97 ≤ c.toNat ∧ c.toNat ≤ 102 then some (c.toNat - 87)
  else if 65 ≤ c.toNat ∧ c.toNat ≤ 70 then some (c.toNat - 55)
  else none

def parseHex : List Char → Option (ℕ × List Char)
  | a :: b :: c :: d :: cs => do
    let a ← hexValue a
    let b ← hexValue b
    let c ← hexValue c
    let d ← hexValue d
    some (a * 4096 + b * 256 + c * 16 + d, cs)
  | _ => none

/-- The character of a code unit, or of a pair of surrogates. A surrogate on its own is no
character, and is read as the replacement character. -/
def parseUnit (cs : List Char) : Option (Char × List Char) := do
  let (high, cs) ← parseHex cs
  if 0xD800 ≤ high ∧ high < 0xDC00 then
    match cs with
    | '\\' :: 'u' :: cs' => do
      let (low, cs') ← parseHex cs'
      if 0xDC00 ≤ low ∧ low < 0xE000 then
        some (Char.ofNat (0x10000 + (high - 0xD800) * 0x400 + (low - 0xDC00)), cs')
      else some (Char.ofNat 0xFFFD, cs)
    | _ => some (Char.ofNat 0xFFFD, cs)
  else if 0xDC00 ≤ high ∧ high < 0xE000 then some (Char.ofNat 0xFFFD, cs)
  else some (Char.ofNat high, cs)

/-- What stands after a backslash. -/
def parseEscape : List Char → Option (Char × List Char)
  | [] => none
  | c :: cs =>
    if c = '\"' ∨ c = '\\' ∨ c = '/' then some (c, cs)
    else if c = 'b' then some (Char.ofNat 8, cs)
    else if c = 'f' then some (Char.ofNat 12, cs)
    else if c = 'n' then some ('\n', cs)
    else if c = 'r' then some ('\r', cs)
    else if c = 't' then some ('\t', cs)
    else if c = 'u' then parseUnit cs
    else none

/-- The characters of a string up to its closing quote. -/
def parseChars : ℕ → List Char → Option (List Char × List Char)
  | 0, _ => none
  | _ + 1, [] => none
  | fuel + 1, c :: cs =>
    if c = '\"' then some ([], cs)
    else if c = '\\' then do
      let (c, cs) ← parseEscape cs
      let (text, cs) ← parseChars fuel cs
      some (c :: text, cs)
    else if c.toNat < 0x20 then none
    else do
      let (text, cs) ← parseChars fuel cs
      some (c :: text, cs)

def parseString (cs : List Char) : Option (String × List Char) :=
  (parseChars (cs.length + 1) cs).map fun r => (String.ofList r.1, r.2)

/-- A part of a number that is written when it starts with `mark`: the digits after it. -/
def parseDigits (cs : List Char) : Option (List Char × List Char) :=
  if (cs.takeWhile Char.isDigit).isEmpty then none
  else some (cs.takeWhile Char.isDigit, cs.dropWhile Char.isDigit)

def parseFraction (cs : List Char) : Option (List Char × List Char) :=
  match cs with
  | '.' :: cs => (parseDigits cs).map fun r => ('.' :: r.1, r.2)
  | cs => some ([], cs)

def parseExponent (cs : List Char) : Option (List Char × List Char) :=
  match cs with
  | [] => some ([], [])
  | c :: cs =>
    if c = 'e' ∨ c = 'E' then
      match cs with
      | '+' :: cs => (parseDigits cs).map fun r => ('e' :: '+' :: r.1, r.2)
      | '-' :: cs => (parseDigits cs).map fun r => ('e' :: '-' :: r.1, r.2)
      | cs => (parseDigits cs).map fun r => ('e' :: r.1, r.2)
    else some ([], c :: cs)

/-- A number without a sign: digits that do not start with a needless zero, a fraction and an
exponent. -/
def parseUnsigned (cs : List Char) : Option (List Char × List Char × List Char) := do
  let (digits, cs) ← parseDigits cs
  if digits.head? = some '0' ∧ digits.length ≠ 1 then none
  else
    let (fraction, cs) ← parseFraction cs
    let (exponent, cs) ← parseExponent cs
    some (digits, fraction ++ exponent, cs)

/-- The value of a number; with a fraction or an exponent its text is kept. -/
def numberOf (negative : Bool) (digits rest : List Char) : JsValue :=
  let value : Int := Nat.ofDigitChars 10 digits 0
  if rest.isEmpty then .int (if negative then -value else value)
  else .real (String.ofList ((if negative then ['-'] else []) ++ digits ++ rest))

def parseNumber : List Char → Option (JsValue × List Char)
  | '-' :: cs => (parseUnsigned cs).map fun r => (numberOf true r.1 r.2.1, r.2.2)
  | cs => (parseUnsigned cs).map fun r => (numberOf false r.1 r.2.1, r.2.2)

/-- A literal after its first character. -/
def parseLiteral (text : List Char) (value : JsValue) (cs : List Char) :
    Option (JsValue × List Char) :=
  if text.isPrefixOf cs then some (value, cs.drop text.length) else none

/-- A property before the others; when it is written again, the later value stays. -/
def addField (key : String) (value : JsValue) (fields : List (String × JsValue)) :
    List (String × JsValue) :=
  match fields.find? fun f => f.1 = key with
  | some later => (key, later.2) :: fields.filter fun f => f.1 ≠ key
  | none => (key, value) :: fields

mutual
def parseValue : ℕ → List Char → Option (JsValue × List Char)
  | 0, _ => none
  | fuel + 1, cs =>
    match skipSpace cs with
    | [] => none
    | c :: cs =>
      if c = 'n' then parseLiteral ['u', 'l', 'l'] .null cs
      else if c = 't' then parseLiteral ['r', 'u', 'e'] (.bool true) cs
      else if c = 'f' then parseLiteral ['a', 'l', 's', 'e'] (.bool false) cs
      else if c = '\"' then (parseString cs).map fun r => (.str r.1, r.2)
      else if c = '[' then
        if (skipSpace cs).head? = some ']' then some (.arr [], (skipSpace cs).tail)
        else (parseItems fuel cs).map fun r => (.arr r.1, r.2)
      else if c = '\x7b' then
        if (skipSpace cs).head? = some '\x7d' then some (.obj [], (skipSpace cs).tail)
        else (parseFields fuel cs).map fun r => (.obj r.1, r.2)
      else parseNumber (c :: cs)

def parseItems : ℕ → List Char → Option (List JsValue × List Char)
  | 0, _ => none
  | fuel + 1, cs => do
    let (value, cs) ← parseValue fuel cs
    match skipSpace cs with
    | ',' :: cs => do
      let (values, cs) ← parseItems fuel cs
      some (value :: values, cs)
    | ']' :: cs => some ([value], cs)
    | _ => none

def parseFields : ℕ → List Char → Option (List (String × JsValue) × List Char)
  | 0, _ => none
  | fuel + 1, cs =>
    match skipSpace cs with
    | '\"' :: cs => do
      let (key, cs) ← parseString cs
      match skipSpace cs with
      | ':' :: cs => do
        let (value, cs) ← parseValue fuel cs
        match skipSpace cs with
        | ',' :: cs => do
          let (fields, cs) ← parseFields fuel cs
          some (addField key value fields, cs)
        | '\x7d' :: cs => some ([(key, value)], cs)
        | _ => none
      | _ => none
    | _ => none
end

/-- `JSON.parse`, which fails on a text that is not of the grammar. -/
def parseJson (text : List Char) : Option JsValue := do
  let (value, rest) ← parseValue (text.length + 1) text
  if (skipSpace rest).isEmpty then some value else none

example : parseJson "\x7b\"a\" : [1, -20,\"x\\u0041\\n\"], \"b\":null\x7d ".toList =
    some (.obj [("a", .arr [.int 1, .int (-20), .str "xA\n"]), ("b", .null)]) := by
  decide +kernel

/-! ## What was written is read back -/

theorem hexValue_digitChar : ∀ d < 16, hexValue (Nat.digitChar d) = some d := by decide

theorem eq_of_toNat {c : Char} {n : ℕ} (h : c.toNat = n) : c = Char.ofNat n := by
  rw [← h, Char.ofNat_toNat]

theorem parseEscape_unicodeEscape {n : ℕ} (hn : n < 0x20) (cs : List Char) :
    parseEscape ('u' :: '0' :: '0' :: Nat.digitChar (n / 16) :: Nat.digitChar (n % 16) :: cs) =
      some (Char.ofNat n, cs) := by
  have h₀ : hexValue '0' = some 0 := by decide
  have h₁ := hexValue_digitChar (n / 16) (by omega)
  have h₂ := hexValue_digitChar (n % 16) (by omega)
  have he : n / 16 * 16 + n % 16 = n := by omega
  have hhigh : ¬ (0xD800 ≤ n ∧ n < 0xDC00) := by omega
  have hlow : ¬ (0xDC00 ≤ n ∧ n < 0xE000) := by omega
  simp [parseEscape, parseUnit, parseHex, h₀, h₁, h₂, he, hhigh, hlow]

theorem parseChars_escape {c : Char} {escaped cs : List Char} (fuel : ℕ)
    (h : parseEscape (escaped ++ cs) = some (c, cs)) :
    parseChars (fuel + 1) ('\\' :: escaped ++ cs) =
      (parseChars fuel cs).map fun r => (c :: r.1, r.2) := by
  have hq : '\\' ≠ '\"' := by decide
  rw [List.cons_append, parseChars, if_neg hq, if_pos rfl, h]
  simp only [bind, Option.bind]
  cases parseChars fuel cs <;> rfl

theorem parseChars_plain {c : Char} (fuel : ℕ) (cs : List Char) (hq : c ≠ '\"') (hb : c ≠ '\\')
    (hc : ¬ c.toNat < 0x20) :
    parseChars (fuel + 1) (c :: cs) = (parseChars fuel cs).map fun r => (c :: r.1, r.2) := by
  rw [parseChars, if_neg hq, if_neg hb, if_neg hc]
  simp only [bind, Option.bind]
  cases parseChars fuel cs <;> rfl

/-- A character is read back from its escape. -/
theorem parseChars_escapeChar (c : Char) (cs : List Char) (fuel : ℕ) :
    parseChars (fuel + 1) (escapeChar c ++ cs) =
      (parseChars fuel cs).map fun r => (c :: r.1, r.2) := by
  unfold escapeChar
  split
  · next h => exact parseChars_escape fuel (by rw [eq_of_toNat h]; rfl)
  · next h => exact parseChars_escape fuel (by rw [eq_of_toNat h]; rfl)
  · next h => exact parseChars_escape fuel (by rw [eq_of_toNat h]; rfl)
  · next h => exact parseChars_escape fuel (by rw [eq_of_toNat h]; rfl)
  · next h => exact parseChars_escape fuel (by rw [eq_of_toNat h]; rfl)
  · next h => exact parseChars_escape fuel (by rw [eq_of_toNat h]; rfl)
  · next h => exact parseChars_escape fuel (by rw [eq_of_toNat h]; rfl)
  · next hquote hback _ _ _ _ _ =>
    split
    · next hn =>
      have he := parseEscape_unicodeEscape hn cs
      rw [Char.ofNat_toNat] at he
      exact parseChars_escape fuel he
    · next hn =>
      have hq : c ≠ '\"' := by
        rintro rfl
        exact hquote rfl
      have hb : c ≠ '\\' := by
        rintro rfl
        exact hback rfl
      exact parseChars_plain fuel cs hq hb hn

theorem parseChars_flatMap (text cs : List Char) {fuel : ℕ} (h : text.length < fuel) :
    parseChars fuel (text.flatMap escapeChar ++ '\"' :: cs) = some (text, cs) := by
  induction text generalizing fuel with
  | nil =>
    obtain ⟨fuel, rfl⟩ := Nat.exists_eq_add_of_lt h
    rfl
  | cons c text ih =>
    cases fuel with
    | zero => exact absurd h (Nat.not_lt_zero _)
    | succ fuel =>
      rw [List.flatMap_cons, List.append_assoc, parseChars_escapeChar,
        ih (Nat.lt_of_succ_lt_succ h)]
      rfl

theorem length_le_flatMap_escapeChar (text : List Char) :
    text.length ≤ (text.flatMap escapeChar).length := by
  have hpos : ∀ c, 1 ≤ (escapeChar c).length := by
    intro c
    unfold escapeChar
    split <;> try simp
    split <;> simp [unicodeEscape]
  induction text with
  | nil => simp
  | cons c text ih =>
    rw [List.flatMap_cons, List.length_append, List.length_cons]
    have := hpos c
    omega

/-- A string is read back from its quoted text. -/
theorem parseString_quote (text : String) (cs : List Char) :
    parseString (text.toList.flatMap escapeChar ++ '\"' :: cs) = some (text, cs) := by
  have hl := length_le_flatMap_escapeChar text.toList
  rw [parseString, parseChars_flatMap]
  · simp
  · simp only [List.length_append, List.length_cons]
    omega

/-! ### Numbers -/

/-- What follows a value inside a text. -/
def Closes (cs : List Char) : Prop := ∀ c ∈ cs.head?, c = ',' ∨ c = ']' ∨ c = '\x7d'

theorem Closes.not_digit {cs : List Char} (h : Closes cs) : ∀ c ∈ cs.head?, ¬ c.isDigit := by
  intro c hc
  rcases h c hc with rfl | rfl | rfl <;> decide

theorem parseDigits_append {digits cs : List Char} (hd : ∀ c ∈ digits, c.isDigit)
    (hne : digits ≠ []) (hc : Closes cs) : parseDigits (digits ++ cs) = some (digits, cs) := by
  have ht : cs.takeWhile Char.isDigit = [] := by
    cases cs with
    | nil => rfl
    | cons c cs => exact List.takeWhile_cons_of_neg (hc.not_digit c rfl)
  have hdrop : cs.dropWhile Char.isDigit = cs := by
    cases cs with
    | nil => rfl
    | cons c cs => exact List.dropWhile_cons_of_neg (hc.not_digit c rfl)
  have htake : (digits ++ cs).takeWhile Char.isDigit = digits := by
    rw [List.takeWhile_append_of_pos hd, ht, List.append_nil]
  have hrest : (digits ++ cs).dropWhile Char.isDigit = cs := by
    rw [List.dropWhile_append_of_pos hd, hdrop]
  rw [parseDigits, htake, hrest]
  simp [hne]

theorem eq_zero_of_head_toDigits (n : ℕ) (h : (Nat.toDigits 10 n).head? = some '0') : n = 0 := by
  induction n using Nat.strongRecOn with
  | ind n ih =>
    by_cases hn : n < 10
    · have hd : ∀ d < 10, [Nat.digitChar d].head? = some '0' → d = 0 := by decide
      rw [Nat.toDigits_of_lt_base hn] at h
      exact hd n hn h
    · rw [Nat.toDigits_of_base_le (by decide) (Nat.le_of_not_lt hn),
        List.head?_append_of_ne_nil _ Nat.toDigits_ne_nil] at h
      have := ih (n / 10) (by omega) h
      omega

theorem parseFraction_of_closes {cs : List Char} (hc : Closes cs) :
    parseFraction cs = some ([], cs) := by
  cases cs with
  | nil => rfl
  | cons c cs => rcases hc c rfl with rfl | rfl | rfl <;> rfl

theorem parseExponent_of_closes {cs : List Char} (hc : Closes cs) :
    parseExponent cs = some ([], cs) := by
  cases cs with
  | nil => rfl
  | cons c cs => rcases hc c rfl with rfl | rfl | rfl <;> rfl

theorem parseUnsigned_toDigits (n : ℕ) {cs : List Char} (hc : Closes cs) :
    parseUnsigned (Nat.toDigits 10 n ++ cs) = some (Nat.toDigits 10 n, [], cs) := by
  have hd : ∀ c ∈ Nat.toDigits 10 n, c.isDigit := fun c hm =>
    Nat.isDigit_of_mem_toDigits (by decide) (by decide) hm
  have hz : ¬ ((Nat.toDigits 10 n).head? = some '0' ∧ (Nat.toDigits 10 n).length ≠ 1) := by
    rintro ⟨hh, hl⟩
    rw [eq_zero_of_head_toDigits n hh] at hl
    exact hl rfl
  simp only [parseUnsigned, parseDigits_append hd Nat.toDigits_ne_nil hc, bind, Option.bind,
    if_neg hz, parseFraction_of_closes hc, parseExponent_of_closes hc, List.append_nil]

theorem toList_toString_ofNat (n : ℕ) : (toString (Int.ofNat n)).toList = Nat.toDigits 10 n :=
  Nat.toList_repr

theorem toList_toString_negSucc (n : ℕ) :
    (toString (Int.negSucc n)).toList = '-' :: Nat.toDigits 10 (n + 1) := by
  change ("-" ++ (n + 1).repr).toList = _
  rw [String.toList_append, Nat.toList_repr]
  rfl

theorem head_toDigits (n : ℕ) : ∃ c cs, Nat.toDigits 10 n = c :: cs ∧ c.isDigit := by
  cases hd : Nat.toDigits 10 n with
  | nil => exact absurd hd Nat.toDigits_ne_nil
  | cons c cs =>
    have hm : c ∈ Nat.toDigits 10 n := by
      rw [hd]
      exact List.mem_cons_self
    exact ⟨c, cs, rfl, Nat.isDigit_of_mem_toDigits (by decide) (by decide) hm⟩

theorem parseNumber_of_ne {c : Char} {cs : List Char} (hm : c ≠ '-') :
    parseNumber (c :: cs) =
      (parseUnsigned (c :: cs)).map fun r => (numberOf false r.1 r.2.1, r.2.2) := by
  unfold parseNumber
  split
  · next he => exact absurd (List.cons.inj he).1 hm
  · rfl

/-- An integer is read back from its digits. -/
theorem parseNumber_toString (n : Int) {cs : List Char} (hc : Closes cs) :
    parseNumber ((toString n).toList ++ cs) = some (.int n, cs) := by
  cases n with
  | ofNat n =>
    have hu := parseUnsigned_toDigits n hc
    obtain ⟨c, digits, hd, hdigit⟩ := head_toDigits n
    have hm : c ≠ '-' := by
      rintro rfl
      exact absurd hdigit (by decide)
    rw [toList_toString_ofNat]
    rw [hd, List.cons_append] at hu ⊢
    rw [parseNumber_of_ne hm, hu, ← hd]
    simp [numberOf]
  | negSucc n =>
    rw [toList_toString_negSucc, List.cons_append, parseNumber, parseUnsigned_toDigits _ hc]
    simp [numberOf, Int.negSucc_eq]

theorem takeWhile_isDigit_append {cs ds : List Char} (hd : Closes ds) :
    (cs ++ ds).takeWhile Char.isDigit = cs.takeWhile Char.isDigit := by
  induction cs with
  | nil =>
    cases ds with
    | nil => rfl
    | cons d ds => exact List.takeWhile_cons_of_neg (hd.not_digit d rfl)
  | cons c cs ih =>
    rw [List.cons_append, List.takeWhile_cons, List.takeWhile_cons, ih]

theorem dropWhile_isDigit_append {cs ds : List Char} (hd : Closes ds) :
    (cs ++ ds).dropWhile Char.isDigit = cs.dropWhile Char.isDigit ++ ds := by
  induction cs with
  | nil =>
    cases ds with
    | nil => rfl
    | cons d ds => exact List.dropWhile_cons_of_neg (hd.not_digit d rfl)
  | cons c cs ih =>
    rw [List.cons_append, List.dropWhile_cons, List.dropWhile_cons, ih]
    split <;> rfl

/-- The parser takes from a text what it takes when the text goes on behind a value. -/
theorem parseDigits_behind {cs ds : List Char} (hd : Closes ds) :
    parseDigits (cs ++ ds) = (parseDigits cs).map fun r => (r.1, r.2 ++ ds) := by
  rw [parseDigits, parseDigits, takeWhile_isDigit_append hd, dropWhile_isDigit_append hd]
  split <;> rfl

theorem parseFraction_behind {cs ds : List Char} (hd : Closes ds) :
    parseFraction (cs ++ ds) = (parseFraction cs).map fun r => (r.1, r.2 ++ ds) := by
  cases cs with
  | nil => exact parseFraction_of_closes hd
  | cons c cs =>
    by_cases hc : c = '.'
    · subst hc
      rw [List.cons_append, parseFraction, parseFraction, parseDigits_behind hd, Option.map_map,
        Option.map_map]
      rfl
    · have hother : ∀ cs : List Char, parseFraction (c :: cs) = some ([], c :: cs) := by
        intro cs
        unfold parseFraction
        split
        · next he => exact absurd (List.cons.inj he).1 hc
        · rfl
      rw [List.cons_append, hother, hother]
      rfl

theorem parseExponent_behind {cs ds : List Char} (hd : Closes ds) :
    parseExponent (cs ++ ds) = (parseExponent cs).map fun r => (r.1, r.2 ++ ds) := by
  cases cs with
  | nil => exact parseExponent_of_closes hd
  | cons c cs =>
    by_cases hc : c = 'e' ∨ c = 'E'
    · match cs with
      | [] =>
        have hnone : parseDigits ds = none := by
          rw [← List.nil_append ds, parseDigits_behind hd]
          rfl
        cases ds with
        | nil => simp [parseExponent, hc, hnone]
        | cons d ds =>
          have hnil : parseDigits [] = none := rfl
          rcases hd d rfl with rfl | rfl | rfl <;> simp [parseExponent, hc, hnone, hnil]
      | d :: cs =>
        have hall : parseDigits (d :: (cs ++ ds)) =
            (parseDigits (d :: cs)).map fun r => (r.1, r.2 ++ ds) := by
          rw [← List.cons_append, parseDigits_behind hd]
        by_cases hp : d = '+'
        · subst hp
          simp [parseExponent, hc, parseDigits_behind hd, Function.comp_def]
        by_cases hm : d = '-'
        · subst hm
          simp [parseExponent, hc, parseDigits_behind hd, Function.comp_def]
        · simp [parseExponent, hc, hp, hm, hall, Function.comp_def]
    · simp [parseExponent, hc]

theorem parseUnsigned_behind {cs ds : List Char} (hd : Closes ds) :
    parseUnsigned (cs ++ ds) = (parseUnsigned cs).map fun r => (r.1, r.2.1, r.2.2 ++ ds) := by
  unfold parseUnsigned
  rw [parseDigits_behind hd]
  cases parseDigits cs with
  | none => rfl
  | some r =>
    simp only [Option.map_some, bind, Option.bind]
    split
    · rfl
    rw [parseFraction_behind hd]
    cases parseFraction r.2 with
    | none => rfl
    | some r' =>
      simp only [Option.map_some]
      rw [parseExponent_behind hd]
      cases parseExponent r'.2 with
      | none => rfl
      | some r'' => rfl

theorem parseUnsigned_nil : parseUnsigned [] = none := rfl

theorem parseNumber_behind {c : Char} {cs ds : List Char} (hd : Closes ds) :
    parseNumber (c :: cs ++ ds) = (parseNumber (c :: cs)).map fun r => (r.1, r.2 ++ ds) := by
  by_cases hc : c = '-'
  · subst hc
    rw [List.cons_append, parseNumber, parseNumber, parseUnsigned_behind hd, Option.map_map,
      Option.map_map]
    rfl
  · rw [List.cons_append, parseNumber_of_ne hc, parseNumber_of_ne hc, ← List.cons_append,
      parseUnsigned_behind hd, Option.map_map, Option.map_map]
    rfl

/-- The text of a number that is no integer. -/
def NumberText (text : String) : Prop := parseNumber text.toList = some (.real text, [])

instance (text : String) : Decidable (NumberText text) := inferInstanceAs (Decidable (_ = _))

theorem NumberText.opens {text : String} (h : NumberText text) :
    ∃ c cs, text.toList = c :: cs ∧ (c = '-' ∨ c.isDigit) := by
  unfold NumberText at h
  cases ht : text.toList with
  | nil =>
    rw [ht] at h
    cases h
  | cons c cs =>
    refine ⟨c, cs, rfl, ?_⟩
    by_cases hc : c = '-'
    · exact Or.inl hc
    · rw [ht, parseNumber_of_ne hc, parseUnsigned, parseDigits] at h
      cases hdigit : c.isDigit with
      | true => exact Or.inr rfl
      | false =>
        rw [List.takeWhile_cons_of_neg (by simp [hdigit])] at h
        cases h

theorem NumberText.parse {text : String} (h : NumberText text) {cs : List Char}
    (hc : Closes cs) : parseNumber (text.toList ++ cs) = some (.real text, cs) := by
  obtain ⟨c, rest, ht, -⟩ := h.opens
  unfold NumberText at h
  rw [ht] at h ⊢
  rw [parseNumber_behind hc, h]
  rfl

example : NumberText "-0.25" ∧ ¬ NumberText "25" := by decide

/-! ### Values -/

mutual
/-- A value without absent parts, whose objects list each key once. -/
def Printed : JsValue → Prop
  | .undefined => False
  | .real text => NumberText text
  | .arr items => PrintedItems items
  | .obj fields => (fields.map Prod.fst).Nodup ∧ PrintedFields fields
  | _ => True

def PrintedItems : List JsValue → Prop
  | [] => True
  | item :: items => Printed item ∧ PrintedItems items

def PrintedFields : List (String × JsValue) → Prop
  | [] => True
  | (_, value) :: fields => Printed value ∧ PrintedFields fields
end

mutual
/-- A value without absent parts, whose numbers are integers and whose objects list each key
once. -/
def Plain : JsValue → Prop
  | .undefined => False
  | .real _ => False
  | .arr items => PlainItems items
  | .obj fields => (fields.map Prod.fst).Nodup ∧ PlainFields fields
  | _ => True

def PlainItems : List JsValue → Prop
  | [] => True
  | item :: items => Plain item ∧ PlainItems items

def PlainFields : List (String × JsValue) → Prop
  | [] => True
  | (_, value) :: fields => Plain value ∧ PlainFields fields
end

mutual
theorem Plain.printed : (v : JsValue) → Plain v → Printed v
  | .undefined, h | .real _, h => absurd h (by simp [Plain])
  | .null, _ | .bool _, _ | .int _, _ | .str _, _ => by simp [Printed]
  | .arr items, h => by
    rw [Printed]
    exact PlainItems.printed items h
  | .obj fields, h => by
    rw [Printed]
    exact ⟨h.1, PlainFields.printed fields h.2⟩

theorem PlainItems.printed : (items : List JsValue) → PlainItems items → PrintedItems items
  | [], _ => trivial
  | item :: items, h => ⟨Plain.printed item h.1, PlainItems.printed items h.2⟩

theorem PlainFields.printed :
    (fields : List (String × JsValue)) → PlainFields fields → PrintedFields fields
  | [], _ => trivial
  | (_, value) :: fields, h => ⟨Plain.printed value h.1, PlainFields.printed fields h.2⟩
end

/-- The text of a value that has one. -/
def textOf (v : JsValue) : List Char := (stringifyChars v).getD []

theorem stringifyChars_of_printed {v : JsValue} (h : Printed v) :
    stringifyChars v = some (textOf v) := by
  cases v with
  | undefined => exact absurd h (by simp [Printed])
  | bool b => cases b <;> simp [textOf, stringifyChars]
  | _ => simp [textOf, stringifyChars]

theorem stringifyItems_cons {v : JsValue} (h : Printed v) (items : List JsValue) :
    stringifyItems (v :: items) = textOf v :: stringifyItems items := by
  rw [stringifyItems, stringifyChars_of_printed h]
  rfl

theorem stringifyFields_cons {v : JsValue} (h : Printed v) (key : String)
    (fields : List (String × JsValue)) :
    stringifyFields ((key, v) :: fields) =
      (quote key ++ ':' :: textOf v) :: stringifyFields fields := by
  rw [stringifyFields, stringifyChars_of_printed h]

theorem joinComma_cons {text : List Char} {texts : List (List Char)} (h : texts ≠ []) :
    joinComma (text :: texts) = text ++ ',' :: joinComma texts := by
  cases texts with
  | nil => exact absurd rfl h
  | cons u us => simp [joinComma, List.intercalate, List.intersperse]

theorem joinComma_singleton (text : List Char) : joinComma [text] = text := by
  simp [joinComma, List.intercalate]

/-- A value starts with a character that is neither a space nor a closing bracket. -/
def Opens (c : Char) : Prop := isJsonSpace c = false ∧ c ≠ ']' ∧ c ≠ '\x7d'

instance (c : Char) : Decidable (Opens c) := inferInstanceAs (Decidable (_ ∧ _))

theorem opens_of_isDigit {c : Char} (h : c.isDigit) : Opens c := by
  refine ⟨?_, ?_, ?_⟩
  · simp only [isJsonSpace, Bool.or_eq_false_iff, decide_eq_false_iff_not]
    refine ⟨⟨⟨?_, ?_⟩, ?_⟩, ?_⟩ <;> rintro rfl <;> exact absurd h (by decide)
  · rintro rfl
    exact absurd h (by decide)
  · rintro rfl
    exact absurd h (by decide)

theorem head_toString (n : Int) :
    ∃ c cs, (toString n).toList = c :: cs ∧ (c = '-' ∨ c.isDigit) := by
  cases n with
  | ofNat n =>
    obtain ⟨c, cs, hd, hdigit⟩ := head_toDigits n
    exact ⟨c, cs, (toList_toString_ofNat n).trans hd, .inr hdigit⟩
  | negSucc n => exact ⟨'-', _, toList_toString_negSucc n, .inl rfl⟩

theorem opens_textOf {v : JsValue} (h : Printed v) : ∃ c cs, textOf v = c :: cs ∧ Opens c := by
  cases v with
  | undefined => exact absurd h (by simp [Printed])
  | real text =>
    obtain ⟨c, cs, hc, hd⟩ := NumberText.opens h
    refine ⟨c, cs, by rw [textOf, stringifyChars]; exact hc, ?_⟩
    rcases hd with rfl | hd
    · decide
    · exact opens_of_isDigit hd
  | null => exact ⟨'n', ['u', 'l', 'l'], by simp [textOf, stringifyChars], by decide⟩
  | bool b =>
    cases b with
    | true => exact ⟨'t', _, by simp [textOf, stringifyChars]; rfl, by decide⟩
    | false => exact ⟨'f', _, by simp [textOf, stringifyChars]; rfl, by decide⟩
  | int n =>
    obtain ⟨c, cs, hc, hd⟩ := head_toString n
    refine ⟨c, cs, by rw [textOf, stringifyChars]; exact hc, ?_⟩
    rcases hd with rfl | hd
    · decide
    · exact opens_of_isDigit hd
  | str s => exact ⟨'\"', _, by simp [textOf, stringifyChars, quote]; rfl, by decide⟩
  | arr items => exact ⟨'[', _, by simp [textOf, stringifyChars]; rfl, by decide⟩
  | obj fields =>
    exact ⟨'\x7b', _, by simp [textOf, stringifyChars]; rfl, by decide⟩

theorem skipSpace_cons {c : Char} (h : isJsonSpace c = false) (cs : List Char) :
    skipSpace (c :: cs) = c :: cs := List.dropWhile_cons_of_neg (by simp [h])

theorem parseValue_number {c : Char} (h : c = '-' ∨ c.isDigit) (fuel : ℕ) (cs : List Char) :
    parseValue (fuel + 1) (c :: cs) = parseNumber (c :: cs) := by
  have hs : isJsonSpace c = false := by
    rcases h with rfl | h
    · decide
    · exact (opens_of_isDigit h).1
  have hne : ∀ d : Char, (d ≠ '-' ∧ d.isDigit = false) → c ≠ d := by
    rintro d ⟨hm, hd⟩ rfl
    rcases h with h | h
    · exact hm h
    · exact absurd h (by simp [hd])
  rw [parseValue, skipSpace_cons hs]
  simp only [if_neg (hne 'n' (by decide)), if_neg (hne 't' (by decide)),
    if_neg (hne 'f' (by decide)), if_neg (hne '\"' (by decide)), if_neg (hne '[' (by decide)),
    if_neg (hne '\x7b' (by decide))]

theorem parseValue_bracket {c : Char} {cs : List Char} (fuel : ℕ) (hs : isJsonSpace c = false)
    (hc : c ≠ ']') : parseValue (fuel + 1) ('[' :: c :: cs) =
      (parseItems fuel (c :: cs)).map fun r => (.arr r.1, r.2) := by
  rw [parseValue, skipSpace_cons (by decide)]
  simp [skipSpace_cons hs, hc]

theorem parseValue_brace {c : Char} {cs : List Char} (fuel : ℕ) (hs : isJsonSpace c = false)
    (hc : c ≠ '\x7d') : parseValue (fuel + 1) ('\x7b' :: c :: cs) =
      (parseFields fuel (c :: cs)).map fun r => (.obj r.1, r.2) := by
  rw [parseValue, skipSpace_cons (by decide)]
  simp [skipSpace_cons hs, hc]

theorem addField_of_not_mem {key : String} {fields : List (String × JsValue)}
    (h : key ∉ fields.map Prod.fst) (value : JsValue) :
    addField key value fields = (key, value) :: fields := by
  have hn : fields.find? (fun f => f.1 = key) = none := by
    rw [List.find?_eq_none]
    intro f hf he
    exact h (List.mem_map.mpr ⟨f, hf, of_decide_eq_true he⟩)
  rw [addField, hn]

theorem closes_comma (cs : List Char) : Closes (',' :: cs) := by
  rintro c ⟨⟩
  exact .inl rfl

theorem closes_bracket (cs : List Char) : Closes (']' :: cs) := by
  rintro c ⟨⟩
  exact .inr (.inl rfl)

theorem closes_brace (cs : List Char) : Closes ('\x7d' :: cs) := by
  rintro c ⟨⟩
  exact .inr (.inr rfl)

theorem stringifyItems_ne_nil {item : JsValue} {items : List JsValue} :
    stringifyItems (item :: items) ≠ [] := by simp [stringifyItems]

theorem head_joinComma {text : List Char} {c : Char} {cs : List Char} (h : text = c :: cs)
    (texts : List (List Char)) : ∃ cs', joinComma (text :: texts) = c :: cs' := by
  cases texts with
  | nil => exact ⟨cs, by rw [joinComma_singleton, h]⟩
  | cons u us => exact ⟨_, by rw [joinComma_cons (by simp), h, List.cons_append]⟩

mutual
/-- A value is read back from its text. -/
theorem parseValue_textOf : (v : JsValue) → Printed v → ∀ fuel cs, (textOf v).length < fuel →
    Closes cs → parseValue fuel (textOf v ++ cs) = some (v, cs)
  | v, hv, 0, cs, h, hc => absurd h (Nat.not_lt_zero _)
  | .undefined, hv, _, _, _, _ => absurd hv (by simp [Printed])
  | .real text, hv, fuel + 1, cs, _, hc => by
    have hnumber : NumberText text := hv
    obtain ⟨c, digits, hd, hdigit⟩ := hnumber.opens
    have ht : textOf (.real text) = text.toList := by rw [textOf, stringifyChars]; rfl
    have hp := hnumber.parse hc
    rw [ht, hd, List.cons_append] at *
    rw [parseValue_number hdigit, hp]
  | .null, _, fuel + 1, cs, _, _ => by
    simp [textOf, stringifyChars, parseValue, skipSpace_cons, isJsonSpace, parseLiteral]
  | .bool true, _, fuel + 1, cs, _, _ => by
    simp [textOf, stringifyChars, parseValue, skipSpace_cons, isJsonSpace, parseLiteral]
  | .bool false, _, fuel + 1, cs, _, _ => by
    simp [textOf, stringifyChars, parseValue, skipSpace_cons, isJsonSpace, parseLiteral]
  | .int n, _, fuel + 1, cs, _, hc => by
    obtain ⟨c, digits, hd, hdigit⟩ := head_toString n
    have ht : textOf (.int n) = (toString n).toList := by rw [textOf, stringifyChars]; rfl
    have hp := parseNumber_toString n hc
    rw [ht, hd, List.cons_append] at *
    rw [parseValue_number hdigit, hp]
  | .str s, _, fuel + 1, cs, _, _ => by
    have ht : textOf (.str s) ++ cs = '\"' :: (s.toList.flatMap escapeChar ++ '\"' :: cs) := by
      simp [textOf, stringifyChars, quote]
    rw [ht, parseValue, skipSpace_cons (by decide)]
    simp [parseString_quote]
  | .arr [], _, fuel + 1, cs, _, _ => by
    simp [textOf, stringifyChars, stringifyItems, joinComma, parseValue, skipSpace_cons,
      isJsonSpace]
  | .arr (item :: items), hv, fuel + 1, cs, h, _ => by
    have ht : textOf (.arr (item :: items)) ++ cs =
        '[' :: (joinComma (stringifyItems (item :: items)) ++ ']' :: cs) := by
      simp [textOf, stringifyChars]
    have hl : (joinComma (stringifyItems (item :: items))).length + 1 < fuel := by
      simp only [textOf, stringifyChars, Option.getD_some, List.length_append, List.length_cons,
        List.length_nil] at h
      omega
    have hitems := parseItems_text (item :: items) (by simp) hv fuel cs hl
    obtain ⟨c, rest, hc, hopens⟩ := opens_textOf (v := item) hv.1
    obtain ⟨tail, hj⟩ := head_joinComma hc (stringifyItems items)
    rw [← stringifyItems_cons hv.1] at hj
    rw [hj, List.cons_append] at ht hitems
    rw [ht, parseValue_bracket _ hopens.1 hopens.2.1, hitems]
    rfl
  | .obj [], _, fuel + 1, cs, _, _ => by
    simp [textOf, stringifyChars, stringifyFields, joinComma, parseValue, skipSpace_cons,
      isJsonSpace]
  | .obj ((key, value) :: fields), hv, fuel + 1, cs, h, _ => by
    have ht : textOf (.obj ((key, value) :: fields)) ++ cs =
        '\x7b' :: (joinComma (stringifyFields ((key, value) :: fields)) ++ '\x7d' :: cs) := by
      simp [textOf, stringifyChars]
    have hl : (joinComma (stringifyFields ((key, value) :: fields))).length + 1 < fuel := by
      simp only [textOf, stringifyChars, Option.getD_some, List.length_append, List.length_cons,
        List.length_nil] at h
      omega
    have hfields := parseFields_text ((key, value) :: fields) (by simp) hv.1 hv.2 fuel cs hl
    have hq : quote key ++ ':' :: textOf value =
        '\"' :: (key.toList.flatMap escapeChar ++ '\"' :: ':' :: textOf value) := by
      simp [quote]
    obtain ⟨tail, hj⟩ := head_joinComma hq (stringifyFields fields)
    rw [← stringifyFields_cons hv.2.1] at hj
    rw [hj, List.cons_append] at ht hfields
    rw [ht, parseValue_brace _ (by decide) (by decide), hfields]
    rfl

theorem parseItems_text : (items : List JsValue) → items ≠ [] → PrintedItems items →
    ∀ fuel cs, (joinComma (stringifyItems items)).length + 1 < fuel →
      parseItems fuel (joinComma (stringifyItems items) ++ ']' :: cs) = some (items, cs)
  | [], hne, _, _, _, _ => absurd rfl hne
  | _ :: _, _, _, 0, _, h => absurd h (Nat.not_lt_zero _)
  | [item], _, hp, fuel + 1, cs, h => by
    rw [stringifyItems_cons hp.1, stringifyItems, joinComma_singleton] at h ⊢
    have hv := parseValue_textOf item hp.1 fuel (']' :: cs) (by omega) (closes_bracket cs)
    rw [parseItems, hv]
    simp [skipSpace_cons, isJsonSpace]
  | item :: next :: items, _, hp, fuel + 1, cs, h => by
    rw [stringifyItems_cons hp.1, joinComma_cons stringifyItems_ne_nil] at h ⊢
    rw [List.length_append, List.length_cons] at h
    rw [List.append_assoc, List.cons_append]
    have hv := parseValue_textOf item hp.1 fuel
      (',' :: (joinComma (stringifyItems (next :: items)) ++ ']' :: cs)) (by omega)
      (closes_comma _)
    have hrest := parseItems_text (next :: items) (by simp) hp.2 fuel cs (by omega)
    rw [parseItems, hv]
    simp [skipSpace_cons, isJsonSpace, hrest]

theorem parseFields_text : (fields : List (String × JsValue)) → fields ≠ [] →
    (fields.map Prod.fst).Nodup → PrintedFields fields →
    ∀ fuel cs, (joinComma (stringifyFields fields)).length + 1 < fuel →
      parseFields fuel (joinComma (stringifyFields fields) ++ '\x7d' :: cs) = some (fields, cs)
  | [], hne, _, _, _, _, _ => absurd rfl hne
  | _ :: _, _, _, _, 0, _, h => absurd h (Nat.not_lt_zero _)
  | [(key, value)], _, _, hp, fuel + 1, cs, h => by
    rw [stringifyFields_cons hp.1, stringifyFields, joinComma_singleton] at h ⊢
    simp only [quote, List.length_append, List.length_cons, List.length_nil] at h
    have hv := parseValue_textOf value hp.1 fuel ('\x7d' :: cs) (by omega) (closes_brace cs)
    have ht : quote key ++ ':' :: textOf value ++ '\x7d' :: cs =
        '\"' :: (key.toList.flatMap escapeChar ++ '\"' :: ':' ::
          (textOf value ++ '\x7d' :: cs)) := by
      simp [quote]
    rw [ht, parseFields, skipSpace_cons (by decide)]
    simp [parseString_quote, skipSpace_cons, isJsonSpace, hv]
  | (key, value) :: next :: fields, _, hn, hp, fuel + 1, cs, h => by
    have hne : stringifyFields (next :: fields) ≠ [] := by
      rw [stringifyFields_cons hp.2.1]
      simp
    rw [stringifyFields_cons hp.1, joinComma_cons hne] at h ⊢
    simp only [quote, List.length_append, List.length_cons, List.length_nil] at h
    have hv := parseValue_textOf value hp.1 fuel
      (',' :: (joinComma (stringifyFields (next :: fields)) ++ '\x7d' :: cs)) (by omega)
      (closes_comma _)
    rw [List.map_cons, List.nodup_cons] at hn
    have hrest := parseFields_text (next :: fields) (by simp) hn.2 hp.2 fuel cs (by omega)
    have ht : quote key ++ ':' :: textOf value ++
          ',' :: joinComma (stringifyFields (next :: fields)) ++ '\x7d' :: cs =
        '\"' :: (key.toList.flatMap escapeChar ++ '\"' :: ':' :: (textOf value ++
          ',' :: (joinComma (stringifyFields (next :: fields)) ++ '\x7d' :: cs))) := by
      simp [quote]
    rw [ht, parseFields, skipSpace_cons (by decide)]
    simp [parseString_quote, skipSpace_cons, isJsonSpace, hv, hrest, addField_of_not_mem hn.1]
end

/-- What `JSON.stringify` wrote, `JSON.parse` reads. -/
theorem parseJson_textOf {v : JsValue} (h : Printed v) : parseJson (textOf v) = some v := by
  have hp := parseValue_textOf v h ((textOf v).length + 1) [] (Nat.lt_succ_self _)
    (by rintro c ⟨⟩)
  rw [List.append_nil] at hp
  unfold parseJson
  rw [hp]
  rfl

/-- Two values have two texts. -/
theorem textOf_injective {v w : JsValue} (hv : Plain v) (hw : Plain w)
    (h : textOf v = textOf w) : v = w := by
  have hp := parseJson_textOf (hv.printed v)
  rw [h, parseJson_textOf (hw.printed w)] at hp
  exact (Option.some.inj hp).symm

/-! ## Canonical texts -/

theorem plainItems_iff (items : List JsValue) : PlainItems items ↔ ∀ v ∈ items, Plain v := by
  induction items with
  | nil => simp [PlainItems]
  | cons v items ih => simp [PlainItems, ih]

theorem plainFields_iff (fields : List (String × JsValue)) :
    PlainFields fields ↔ ∀ f ∈ fields, Plain f.2 := by
  induction fields with
  | nil => simp [PlainFields]
  | cons f fields ih => simp [PlainFields, ih]

theorem canonicalizeItems_eq (items : List JsValue) :
    canonicalizeItems items = items.map canonicalize := by
  induction items with
  | nil => rfl
  | cons v items ih => rw [canonicalizeItems, ih, List.map_cons]

theorem canonicalizeFields_eq (fields : List (String × JsValue)) :
    canonicalizeFields fields = fields.map fun f => (f.1, canonicalize f.2) := by
  induction fields with
  | nil => rfl
  | cons f fields ih => rw [canonicalizeFields, ih, List.map_cons]

/-- The fields of an object in their canonical order. -/
def canonicalFieldsOf (fields : List (String × JsValue)) : List (String × JsValue) :=
  (canonicalizeFields fields).insertionSort fun x y => utf16Le x.1 y.1

theorem canonicalize_obj (fields : List (String × JsValue)) :
    canonicalize (.obj fields) = .obj (canonicalFieldsOf fields) := rfl

theorem canonicalize_arr (items : List JsValue) :
    canonicalize (.arr items) = .arr (items.map canonicalize) := by
  rw [canonicalize, canonicalizeItems_eq]

theorem perm_canonicalFieldsOf (fields : List (String × JsValue)) :
    (canonicalFieldsOf fields).Perm (canonicalizeFields fields) := List.perm_insertionSort _ _

theorem keys_canonicalizeFields (fields : List (String × JsValue)) :
    (canonicalizeFields fields).map Prod.fst = fields.map Prod.fst := by
  rw [canonicalizeFields_eq, List.map_map]
  rfl

theorem nodup_canonicalFieldsOf {fields : List (String × JsValue)}
    (h : (fields.map Prod.fst).Nodup) : ((canonicalFieldsOf fields).map Prod.fst).Nodup := by
  rw [((perm_canonicalFieldsOf fields).map Prod.fst).nodup_iff, keys_canonicalizeFields]
  exact h

mutual
theorem plain_canonicalize : (v : JsValue) → Plain v → Plain (canonicalize v)
  | .undefined, h | .null, h | .bool _, h | .int _, h | .real _, h | .str _, h => by
    simpa [canonicalize] using h
  | .arr items, h => by
    rw [canonicalize, Plain]
    exact plainItems_canonicalize items h
  | .obj fields, h => by
    rw [canonicalize_obj]
    refine ⟨nodup_canonicalFieldsOf h.1, (plainFields_iff _).mpr ?_⟩
    intro f hf
    have hm := (perm_canonicalFieldsOf fields).mem_iff.mp hf
    exact (plainFields_iff _).mp (plainFields_canonicalize fields h.2) f hm

theorem plainItems_canonicalize :
    (items : List JsValue) → PlainItems items → PlainItems (canonicalizeItems items)
  | [], _ => trivial
  | v :: items, h => ⟨plain_canonicalize v h.1, plainItems_canonicalize items h.2⟩

theorem plainFields_canonicalize :
    (fields : List (String × JsValue)) → PlainFields fields →
      PlainFields (canonicalizeFields fields)
  | [], _ => trivial
  | (_, v) :: fields, h => ⟨plain_canonicalize v h.1, plainFields_canonicalize fields h.2⟩
end

theorem field_of_not_mem {key : String} {fields : List (String × JsValue)}
    (h : key ∉ fields.map Prod.fst) : JsValue.field key fields = .undefined := by
  induction fields with
  | nil => rfl
  | cons f fields ih =>
    obtain ⟨k, v⟩ := f
    rw [List.map_cons, List.mem_cons, not_or] at h
    rw [JsValue.field_cons, if_neg (Ne.symm h.1), ih h.2]

/-- A property does not depend on the order of the properties. -/
theorem field_perm {key : String} {fields fields' : List (String × JsValue)}
    (h : fields.Perm fields') (hn : (fields.map Prod.fst).Nodup) :
    JsValue.field key fields = JsValue.field key fields' := by
  induction h with
  | nil => rfl
  | cons f _ ih =>
    obtain ⟨k, v⟩ := f
    rw [List.map_cons, List.nodup_cons] at hn
    rw [JsValue.field_cons, JsValue.field_cons, ih hn.2]
  | swap f g fields =>
    obtain ⟨k, v⟩ := f
    obtain ⟨l, w⟩ := g
    have hne : l ≠ k := by
      rintro rfl
      simp at hn
    simp only [JsValue.field_cons]
    by_cases hk : k = key
    · have hl : l ≠ key := fun hl => hne (hl.trans hk.symm)
      simp [hk, hl]
    · simp [hk]
  | trans h₁ _ ih₁ ih₂ =>
    rw [ih₁ hn, ih₂ (((h₁.map Prod.fst).nodup_iff).mp hn)]

theorem field_canonicalizeFields (key : String) (fields : List (String × JsValue)) :
    JsValue.field key (canonicalizeFields fields) = canonicalize (JsValue.field key fields) := by
  induction fields with
  | nil => rfl
  | cons f fields ih =>
    obtain ⟨k, v⟩ := f
    rw [canonicalizeFields, JsValue.field_cons, JsValue.field_cons, ih]
    split <;> rfl

/-- A property of a canonical object is the canonical property. -/
theorem field_canonicalFieldsOf (key : String) {fields : List (String × JsValue)}
    (hn : (fields.map Prod.fst).Nodup) :
    JsValue.field key (canonicalFieldsOf fields) = canonicalize (JsValue.field key fields) := by
  rw [field_perm (perm_canonicalFieldsOf fields) (nodup_canonicalFieldsOf hn),
    field_canonicalizeFields]

/-- Objects with the same keys are equal when their properties are. -/
theorem eq_of_fields {fields : List (String × JsValue)} :
    ∀ {fields' : List (String × JsValue)}, (fields.map Prod.fst).Nodup →
      fields.map Prod.fst = fields'.map Prod.fst →
      (∀ key, JsValue.field key fields = JsValue.field key fields') → fields = fields' := by
  induction fields with
  | nil =>
    intro fields' _ hk _
    exact (List.map_eq_nil_iff.mp hk.symm).symm
  | cons f fields ih =>
    rintro (_ | ⟨g, fields'⟩) hn hk hf
    · cases hk
    · obtain ⟨k, v⟩ := f
      obtain ⟨l, w⟩ := g
      simp only [List.map_cons, List.cons.injEq, List.nodup_cons] at hn hk
      obtain ⟨rfl, hk⟩ := hk
      have hv := hf k
      simp only [JsValue.field_cons, if_true] at hv
      rw [hv, ih hn.2 hk]
      intro key
      have hkey := hf key
      simp only [JsValue.field_cons] at hkey
      by_cases he : k = key
      · rw [← he, field_of_not_mem hn.1, field_of_not_mem (hk ▸ hn.1)]
      · rwa [if_neg he, if_neg he] at hkey

/-- Canonical objects with the same keys agree in every canonical property. -/
theorem canonicalizeFields_eq_of_canonicalize {fields fields' : List (String × JsValue)}
    (hn : (fields.map Prod.fst).Nodup) (hk : fields.map Prod.fst = fields'.map Prod.fst)
    (h : canonicalize (.obj fields) = canonicalize (.obj fields')) :
    canonicalizeFields fields = canonicalizeFields fields' := by
  have hn₁ : ((canonicalizeFields fields).map Prod.fst).Nodup := by
    rwa [keys_canonicalizeFields]
  have hk₁ : (canonicalizeFields fields).map Prod.fst =
      (canonicalizeFields fields').map Prod.fst := by
    rw [keys_canonicalizeFields, keys_canonicalizeFields, hk]
  apply eq_of_fields hn₁ hk₁
  intro key
  rw [field_canonicalizeFields, field_canonicalizeFields, ← field_canonicalFieldsOf key hn,
    ← field_canonicalFieldsOf key (hk ▸ hn)]
  exact congrArg (JsValue.field key) (JsValue.obj.inj h)

end Qualigence.Protocol
