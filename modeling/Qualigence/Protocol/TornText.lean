import Qualigence.Protocol.Buffers
import Qualigence.Protocol.JsonParse
import Mathlib.Data.List.Induction
import Mathlib.Data.List.TakeWhile

/-! # Texts that were cut

A scanner follows the brackets and the strings of a JSON text, from its first brace on. It ends in
`done` on every text that `JSON.parse` reads as an object, so a text that was cut before its last
brace is not read, whatever was written behind the cut in the meantime.
-/

namespace Qualigence.Protocol

/-! ## The scanner -/

/-- Inside of how many brackets a text is, and whether it is in a string, behind a backslash in a
string or behind a string. -/
inductive ScanState where
  | normal (depth : ℕ)
  | quoted (depth : ℕ)
  | escaped (depth : ℕ)
  | closed (depth : ℕ)
  | done
  | dead
  deriving DecidableEq

namespace ScanState

/-- Behind a closing bracket. -/
def close : ℕ → ScanState
  | 0 => dead
  | 1 => done
  | depth + 2 => normal (depth + 1)

def next : ScanState → Char → ScanState
  | normal depth, c =>
    if c = '\"' then quoted depth
    else if c = '\x7b' ∨ c = '[' then normal (depth + 1)
    else if c = '\x7d' ∨ c = ']' then close depth
    else normal depth
  | quoted depth, c =>
    if c = '\"' then closed depth else if c = '\\' then escaped depth else quoted depth
  | escaped depth, _ => quoted depth
  | closed depth, c =>
    if isJsonSpace c then closed depth
    else if c = ',' ∨ c = ':' then normal depth
    else if c = '\x7d' ∨ c = ']' then close depth
    else dead
  | done, c => if isJsSpace c then done else dead
  | dead, _ => dead

/-- The state behind a text. -/
def scan (s : ScanState) (cs : List Char) : ScanState := cs.foldl next s

theorem scan_append (s : ScanState) (cs ds : List Char) :
    s.scan (cs ++ ds) = (s.scan cs).scan ds := List.foldl_append

theorem scan_cons (s : ScanState) (c : Char) (cs : List Char) :
    s.scan (c :: cs) = (s.next c).scan cs := rfl

theorem scan_nil (s : ScanState) : s.scan [] = s := rfl

theorem scan_dead (cs : List Char) : dead.scan cs = dead := by
  induction cs with
  | nil => rfl
  | cons c cs ih => exact ih

/-- Spaces change nothing outside of strings. -/
theorem scan_spaces {s : ScanState} (hs : ∀ c, isJsonSpace c → s.next c = s) {cs : List Char}
    (h : ∀ c ∈ cs, isJsonSpace c) : s.scan cs = s := by
  induction cs with
  | nil => rfl
  | cons c cs ih =>
    rw [scan_cons, hs c (h c List.mem_cons_self)]
    exact ih fun d hd => h d (List.mem_cons_of_mem c hd)

theorem isJsSpace_of_isJsonSpace {c : Char} (h : isJsonSpace c) : isJsSpace c := by
  simp only [isJsonSpace, Bool.or_eq_true, decide_eq_true_eq] at h
  rcases h with ((rfl | rfl) | rfl) | rfl <;> decide

theorem next_normal_space {depth : ℕ} (c : Char) (h : isJsonSpace c) :
    (normal depth).next c = normal depth := by
  have hne : c ≠ '\"' ∧ c ≠ '\x7b' ∧ c ≠ '[' ∧ c ≠ '\x7d' ∧ c ≠ ']' := by
    refine ⟨?_, ?_, ?_, ?_, ?_⟩ <;> rintro rfl <;> exact absurd h (by decide)
  simp [next, hne]

theorem next_closed_space {depth : ℕ} (c : Char) (h : isJsonSpace c) :
    (closed depth).next c = closed depth := by
  simp [next, h]

/-- Behind a value. -/
def After (depth : ℕ) (s : ScanState) : Prop := s = normal depth ∨ s = closed depth

theorem After.space {depth : ℕ} {s : ScanState} (h : s.After depth) {cs : List Char}
    (hc : ∀ c ∈ cs, isJsonSpace c) : s.scan cs = s := by
  rcases h with rfl | rfl
  · exact scan_spaces next_normal_space hc
  · exact scan_spaces next_closed_space hc

theorem After.comma {depth : ℕ} {s : ScanState} (h : s.After depth) :
    s.next ',' = normal depth := by
  rcases h with rfl | rfl <;> rfl

theorem After.bracket {depth : ℕ} {s : ScanState} (h : s.After depth) :
    s.next ']' = close depth := by
  rcases h with rfl | rfl <;> rfl

theorem After.brace {depth : ℕ} {s : ScanState} (h : s.After depth) :
    s.next '\x7d' = close depth := by
  rcases h with rfl | rfl <;> rfl

end ScanState

open ScanState

/-! ## What the parser takes -/

/-- The text `used` was taken from the front of `cs`, and the scanner goes over it from one state
to another one. -/
def Takes (P : ScanState → Prop) (s : ScanState) (cs rest : List Char) : Prop :=
  ∃ used, cs = used ++ rest ∧ P (s.scan used)

theorem Takes.trans {P Q : ScanState → Prop} {s : ScanState} {cs ds rest : List Char}
    (h : Takes P s cs ds) (h' : ∀ t, P t → Takes Q t ds rest) : Takes Q s cs rest := by
  obtain ⟨used, rfl, hp⟩ := h
  obtain ⟨used', rfl, hq⟩ := h' _ hp
  exact ⟨used ++ used', by rw [List.append_assoc], by rwa [scan_append]⟩

theorem takes_cons {P : ScanState → Prop} {s : ScanState} {c : Char} {cs rest : List Char}
    (h : Takes P (s.next c) cs rest) : Takes P s (c :: cs) rest := by
  obtain ⟨used, rfl, hp⟩ := h
  exact ⟨c :: used, rfl, hp⟩

theorem takes_refl {P : ScanState → Prop} {s : ScanState} {cs : List Char} (h : P s) :
    Takes P s cs cs :=
  ⟨[], rfl, h⟩

theorem Takes.mono {P Q : ScanState → Prop} {s : ScanState} {cs rest : List Char}
    (h : Takes P s cs rest) (hpq : ∀ t, P t → Q t) : Takes Q s cs rest := by
  obtain ⟨used, hc, hp⟩ := h
  exact ⟨used, hc, hpq _ hp⟩

theorem takes_skipSpace {s : ScanState} (hs : ∀ cs : List Char, (∀ c ∈ cs, isJsonSpace c) →
    s.scan cs = s) (cs : List Char) : Takes (· = s) s cs (skipSpace cs) := by
  refine ⟨cs.takeWhile isJsonSpace, (List.takeWhile_append_dropWhile).symm, hs _ fun c hc => ?_⟩
  exact List.all_eq_true.mp List.all_takeWhile c hc

theorem takes_hex {s : ScanState} (hs : ∀ c n, hexValue c = some n → s.next c = s)
    {cs rest : List Char} {n : ℕ} (h : parseHex cs = some (n, rest)) : Takes (· = s) s cs rest := by
  unfold parseHex at h
  split at h
  · next a b c d cs =>
    simp only [bind, Option.bind_eq_some_iff] at h
    obtain ⟨na, ha, nb, hb, nc, hc, nd, hd, h⟩ := h
    cases h
    refine ⟨[a, b, c, d], rfl, ?_⟩
    simp only [scan_cons, scan_nil, hs a na ha, hs b nb hb, hs c nc hc, hs d nd hd]
  · cases h

theorem next_quoted_hex {depth : ℕ} (c : Char) (n : ℕ) (h : hexValue c = some n) :
    (quoted depth).next c = quoted depth := by
  have hne : c ≠ '\"' ∧ c ≠ '\\' := by
    have hquote : hexValue '\"' = none := by decide
    have hbackslash : hexValue '\\' = none := by decide
    constructor <;> rintro rfl
    · cases hquote.symm.trans h
    · cases hbackslash.symm.trans h
  simp [next, hne]

theorem takes_unit {depth : ℕ} {cs rest : List Char} {c : Char}
    (h : parseUnit cs = some (c, rest)) : Takes (· = quoted depth) (quoted depth) cs rest := by
  unfold parseUnit at h
  obtain ⟨⟨high, ds⟩, hhigh, h⟩ := Option.bind_eq_some_iff.mp h
  have hd := takes_hex (s := quoted depth) next_quoted_hex hhigh
  have hrest : ∀ {d : Char} {ds : List Char}, some (d, ds) = some (c, rest) → ds = rest :=
    fun he => (Prod.mk.inj (Option.some.inj he)).2
  dsimp only at h
  split at h
  · split at h
    · next es =>
      obtain ⟨⟨low, fs⟩, hlow, h⟩ := Option.bind_eq_some_iff.mp h
      dsimp only at h
      split at h
      · rw [← hrest h]
        refine hd.trans fun t ht => ?_
        subst ht
        exact takes_cons (takes_cons (takes_hex next_quoted_hex hlow))
      · exact hrest h ▸ hd
    · exact hrest h ▸ hd
  · split at h
    · exact hrest h ▸ hd
    · exact hrest h ▸ hd

theorem takes_escape {depth : ℕ} {cs rest : List Char} {c : Char}
    (h : parseEscape cs = some (c, rest)) : Takes (· = quoted depth) (escaped depth) cs rest := by
  unfold parseEscape at h
  cases cs with
  | nil => cases h
  | cons d cs =>
    dsimp only at h
    refine takes_cons ?_
    have hone : ∀ e : Char, some (e, cs) = some (c, rest) →
        Takes (· = quoted depth) (quoted depth) cs rest := by
      rintro e ⟨⟩
      exact takes_refl rfl
    split at h
    · exact hone _ h
    split at h
    · exact hone _ h
    split at h
    · exact hone _ h
    split at h
    · exact hone _ h
    split at h
    · exact hone _ h
    split at h
    · exact hone _ h
    split at h
    · exact takes_unit h
    · cases h

theorem takes_chars {depth fuel : ℕ} {cs rest text : List Char}
    (h : parseChars fuel cs = some (text, rest)) :
    Takes (· = closed depth) (quoted depth) cs rest := by
  induction fuel generalizing cs text with
  | zero => cases h
  | succ fuel ih =>
    cases cs with
    | nil => cases h
    | cons c cs =>
      unfold parseChars at h
      refine takes_cons ?_
      split at h
      · next hq =>
        cases h
        simp only [next, if_pos hq]
        exact takes_refl rfl
      · next hq =>
        split at h
        · next hb =>
          obtain ⟨⟨d, ds⟩, hd, h⟩ := Option.bind_eq_some_iff.mp h
          obtain ⟨⟨text', es⟩, he, h⟩ := Option.bind_eq_some_iff.mp h
          cases h
          simp only [next, if_neg hq, if_pos hb]
          refine (takes_escape hd).trans fun t ht => ?_
          subst ht
          exact ih he
        · next hb =>
          split at h
          · cases h
          · obtain ⟨⟨text', es⟩, he, h⟩ := Option.bind_eq_some_iff.mp h
            cases h
            simp only [next, if_neg hq, if_neg hb]
            exact ih he

theorem takes_string {depth : ℕ} {cs rest : List Char} {s : String}
    (h : parseString cs = some (s, rest)) : Takes (· = closed depth) (quoted depth) cs rest := by
  obtain ⟨⟨text, ds⟩, hd, h⟩ := Option.map_eq_some_iff.mp h
  cases h
  exact takes_chars hd

/-! ### Numbers and literals -/

/-- A text that the scanner goes over outside of strings. -/
theorem takes_plain {depth : ℕ} {used : List Char} (rest : List Char)
    (h : ∀ c ∈ used, (normal depth).next c = normal depth) :
    Takes (· = normal depth) (normal depth) (used ++ rest) rest := by
  refine ⟨used, rfl, ?_⟩
  induction used with
  | nil => rfl
  | cons c used ih =>
    rw [scan_cons, h c List.mem_cons_self]
    exact ih fun d hd => h d (List.mem_cons_of_mem c hd)

theorem next_normal_digit {depth : ℕ} {c : Char} (h : c.isDigit) :
    (normal depth).next c = normal depth := by
  have hne : c ≠ '\"' ∧ c ≠ '\x7b' ∧ c ≠ '[' ∧ c ≠ '\x7d' ∧ c ≠ ']' := by
    refine ⟨?_, ?_, ?_, ?_, ?_⟩ <;> rintro rfl <;> exact absurd h (by decide)
  simp [next, hne]

theorem takes_digits {depth : ℕ} {cs rest digits : List Char}
    (h : parseDigits cs = some (digits, rest)) :
    Takes (· = normal depth) (normal depth) cs rest := by
  unfold parseDigits at h
  split at h
  · cases h
  · cases h
    have hplain : ∀ c ∈ cs.takeWhile Char.isDigit, (normal depth).next c = normal depth :=
      fun c hc => next_normal_digit (List.all_eq_true.mp List.all_takeWhile c hc)
    have htakes := takes_plain (cs.dropWhile Char.isDigit) hplain
    rwa [List.takeWhile_append_dropWhile] at htakes

/-- A mark of a number, and the digits behind it. -/
theorem takes_marked {depth : ℕ} {cs rest : List Char} {f : List Char × List Char → List Char}
    {text : List Char} {c : Char} (hc : (normal depth).next c = normal depth)
    (h : ((parseDigits cs).map fun r => (f r, r.2)) = some (text, rest)) :
    Takes (· = normal depth) (normal depth) (c :: cs) rest := by
  obtain ⟨⟨digits, ds⟩, hd, he⟩ := Option.map_eq_some_iff.mp h
  cases he
  refine takes_cons ?_
  rw [hc]
  exact takes_digits hd

theorem takes_fraction {depth : ℕ} {cs rest text : List Char}
    (h : parseFraction cs = some (text, rest)) :
    Takes (· = normal depth) (normal depth) cs rest := by
  unfold parseFraction at h
  split at h
  · exact takes_marked rfl h
  · cases h
    exact takes_refl rfl

theorem takes_exponent {depth : ℕ} {cs rest text : List Char}
    (h : parseExponent cs = some (text, rest)) :
    Takes (· = normal depth) (normal depth) cs rest := by
  unfold parseExponent at h
  split at h
  · cases h
    exact takes_refl rfl
  · next c cs =>
    split at h
    · next he =>
      have hmark : (normal depth).next c = normal depth := by rcases he with rfl | rfl <;> rfl
      split at h
      · refine takes_cons ?_
        rw [hmark]
        exact takes_marked rfl h
      · refine takes_cons ?_
        rw [hmark]
        exact takes_marked rfl h
      · exact takes_marked hmark h
    · cases h
      exact takes_refl rfl

theorem takes_unsigned {depth : ℕ} {cs rest digits text : List Char}
    (h : parseUnsigned cs = some (digits, text, rest)) :
    Takes (· = normal depth) (normal depth) cs rest := by
  unfold parseUnsigned at h
  obtain ⟨⟨ds, cs'⟩, hd, h⟩ := Option.bind_eq_some_iff.mp h
  dsimp only at h
  split at h
  · cases h
  · obtain ⟨⟨fraction, es⟩, hf, h⟩ := Option.bind_eq_some_iff.mp h
    obtain ⟨⟨exponent, gs⟩, he, h⟩ := Option.bind_eq_some_iff.mp h
    cases h
    refine (takes_digits hd).trans fun t ht => ?_
    subst ht
    refine (takes_fraction hf).trans fun t ht => ?_
    subst ht
    exact takes_exponent he

theorem takes_number {depth : ℕ} {cs rest : List Char} {v : JsValue}
    (h : parseNumber cs = some (v, rest)) :
    Takes (· = normal depth) (normal depth) cs rest := by
  unfold parseNumber at h
  split at h
  · obtain ⟨⟨digits, text, ds⟩, hu, h⟩ := Option.map_eq_some_iff.mp h
    cases h
    exact takes_cons (takes_unsigned hu)
  · obtain ⟨⟨digits, text, ds⟩, hu, h⟩ := Option.map_eq_some_iff.mp h
    cases h
    exact takes_unsigned hu

theorem takes_literal {depth : ℕ} {text cs rest : List Char} {value v : JsValue}
    (ht : ∀ c ∈ text, (normal depth).next c = normal depth)
    (h : parseLiteral text value cs = some (v, rest)) :
    Takes (· = normal depth) (normal depth) cs rest := by
  unfold parseLiteral at h
  split at h
  · next hp =>
    cases h
    obtain ⟨ds, rfl⟩ := List.isPrefixOf_iff_prefix.mp hp
    rw [List.drop_left]
    exact takes_plain _ ht
  · cases h

/-! ### Values -/

theorem takes_skipSpace_normal (depth : ℕ) (cs : List Char) :
    Takes (· = normal depth) (normal depth) cs (skipSpace cs) :=
  takes_skipSpace (fun _ => scan_spaces next_normal_space) cs

/-- Over the spaces behind a value to the character that follows. -/
theorem Takes.skipSpace {depth : ℕ} {s : ScanState} {cs ds : List Char}
    (h : Takes (After depth) s cs ds) : Takes (After depth) s cs (skipSpace ds) :=
  h.trans fun _ ht => (takes_skipSpace (fun _ hc => ht.space hc) ds).mono fun _ hu => hu ▸ ht

theorem Takes.cons_next {P Q : ScanState → Prop} {s : ScanState} {cs rest : List Char} {c : Char}
    (h : Takes P s cs (c :: rest)) (hpq : ∀ t, P t → Q (t.next c)) : Takes Q s cs rest :=
  h.trans fun _ ht => takes_cons (takes_refl (hpq _ ht))

/-- The scanner goes over what the parser reads. -/
structure Scanned (fuel : ℕ) : Prop where
  value : ∀ {cs rest : List Char} {v : JsValue} (depth : ℕ), parseValue fuel cs = some (v, rest) →
    Takes (After (depth + 1)) (normal (depth + 1)) cs rest
  items : ∀ {cs rest : List Char} {vs : List JsValue} (depth : ℕ),
    parseItems fuel cs = some (vs, rest) →
    Takes (· = close (depth + 1)) (normal (depth + 1)) cs rest
  fields : ∀ {cs rest : List Char} {fs : List (String × JsValue)} (depth : ℕ),
    parseFields fuel cs = some (fs, rest) →
    Takes (· = close (depth + 1)) (normal (depth + 1)) cs rest

/-- What stands between a pair of braces. -/
theorem takes_braces {fuel : ℕ} (ih : Scanned fuel) {depth : ℕ} {cs rest : List Char} {v : JsValue}
    (h : (if (skipSpace cs).head? = some '\x7d' then some (.obj [], (skipSpace cs).tail)
        else (parseFields fuel cs).map fun r => (.obj r.1, r.2)) = some (v, rest)) :
    Takes (· = close (depth + 1)) (normal (depth + 1)) cs rest := by
  split at h
  · next hhead =>
    obtain ⟨tail, htail⟩ := List.head?_eq_some_iff.mp hhead
    rw [htail] at h
    cases h
    have hspace := takes_skipSpace_normal (depth + 1) cs
    rw [htail] at hspace
    refine hspace.cons_next fun t ht => ?_
    subst ht
    rfl
  · obtain ⟨⟨fs, ds⟩, hf, he⟩ := Option.map_eq_some_iff.mp h
    cases he
    exact ih.fields depth hf

theorem takes_brackets {fuel : ℕ} (ih : Scanned fuel) {depth : ℕ} {cs rest : List Char}
    {v : JsValue}
    (h : (if (skipSpace cs).head? = some ']' then some (.arr [], (skipSpace cs).tail)
        else (parseItems fuel cs).map fun r => (.arr r.1, r.2)) = some (v, rest)) :
    Takes (· = close (depth + 1)) (normal (depth + 1)) cs rest := by
  split at h
  · next hhead =>
    obtain ⟨tail, htail⟩ := List.head?_eq_some_iff.mp hhead
    rw [htail] at h
    cases h
    have hspace := takes_skipSpace_normal (depth + 1) cs
    rw [htail] at hspace
    refine hspace.cons_next fun t ht => ?_
    subst ht
    rfl
  · obtain ⟨⟨vs, ds⟩, hf, he⟩ := Option.map_eq_some_iff.mp h
    cases he
    exact ih.items depth hf

theorem scanned_value {fuel : ℕ} (ih : Scanned fuel) {cs rest : List Char} {v : JsValue}
    (depth : ℕ) (h : parseValue (fuel + 1) cs = some (v, rest)) :
    Takes (After (depth + 1)) (normal (depth + 1)) cs rest := by
  refine (takes_skipSpace_normal _ cs).trans fun t ht => ?_
  subst ht
  unfold parseValue at h
  have hafter : ∀ t, t = normal (depth + 1) → After (depth + 1) t := fun _ => Or.inl
  split at h
  · cases h
  next c ds hskip =>
  rw [hskip]
  split at h
  · next hc =>
    subst hc
    exact takes_cons ((takes_literal (by simp [next]) h).mono hafter)
  split at h
  · next hc =>
    subst hc
    exact takes_cons ((takes_literal (by simp [next]) h).mono hafter)
  split at h
  · next hc =>
    subst hc
    exact takes_cons ((takes_literal (by simp [next]) h).mono hafter)
  split at h
  · next hc =>
    subst hc
    obtain ⟨⟨text, es⟩, hs, he⟩ := Option.map_eq_some_iff.mp h
    cases he
    exact takes_cons ((takes_string hs).mono fun _ => Or.inr)
  split at h
  · next hc =>
    subst hc
    exact takes_cons ((takes_brackets ih h).mono hafter)
  split at h
  · next hc =>
    subst hc
    exact takes_cons ((takes_braces ih h).mono hafter)
  · exact (takes_number h).mono hafter

theorem scanned_items {fuel : ℕ} (ih : Scanned fuel) {cs rest : List Char} {vs : List JsValue}
    (depth : ℕ) (h : parseItems (fuel + 1) cs = some (vs, rest)) :
    Takes (· = close (depth + 1)) (normal (depth + 1)) cs rest := by
  unfold parseItems at h
  obtain ⟨⟨v, ds⟩, hv, h⟩ := Option.bind_eq_some_iff.mp h
  have hvalue := (ih.value depth hv).skipSpace
  dsimp only at h
  split at h
  · next es hskip =>
    obtain ⟨⟨us, gs⟩, hu, h⟩ := Option.bind_eq_some_iff.mp h
    cases h
    rw [hskip] at hvalue
    have hcomma : Takes (· = normal (depth + 1)) (normal (depth + 1)) cs es :=
      hvalue.cons_next fun t ht => ht.comma
    refine hcomma.trans fun t ht => ?_
    subst ht
    exact ih.items depth hu
  · next es hskip =>
    cases h
    rw [hskip] at hvalue
    exact hvalue.cons_next fun t ht => ht.bracket
  · cases h

theorem scanned_fields {fuel : ℕ} (ih : Scanned fuel) {cs rest : List Char}
    {fs : List (String × JsValue)} (depth : ℕ) (h : parseFields (fuel + 1) cs = some (fs, rest)) :
    Takes (· = close (depth + 1)) (normal (depth + 1)) cs rest := by
  refine (takes_skipSpace_normal _ cs).trans fun t ht => ?_
  subst ht
  unfold parseFields at h
  split at h
  · next ds hskip =>
    rw [hskip]
    obtain ⟨⟨key, es⟩, hk, h⟩ := Option.bind_eq_some_iff.mp h
    have hkey : Takes (After (depth + 1)) (quoted (depth + 1)) ds (skipSpace es) :=
      ((takes_string hk).mono fun _ => Or.inr).skipSpace
    refine takes_cons ?_
    dsimp only at h
    split at h
    · next gs hcolon =>
      obtain ⟨⟨v, ks⟩, hv, h⟩ := Option.bind_eq_some_iff.mp h
      rw [hcolon] at hkey
      have hcolon' : Takes (· = normal (depth + 1)) (quoted (depth + 1)) ds gs := by
        refine hkey.cons_next fun t ht => ?_
        rcases ht with rfl | rfl <;> rfl
      have hvalue : Takes (After (depth + 1)) (quoted (depth + 1)) ds (skipSpace ks) :=
        (hcolon'.trans fun t ht => by
          subst ht
          exact ih.value depth hv).skipSpace
      dsimp only at h
      split at h
      · next ms hskip' =>
        obtain ⟨⟨us, ns⟩, hu, h⟩ := Option.bind_eq_some_iff.mp h
        cases h
        rw [hskip'] at hvalue
        have hcomma : Takes (· = normal (depth + 1)) (quoted (depth + 1)) ds ms :=
          hvalue.cons_next fun t ht => ht.comma
        refine hcomma.trans fun t ht => ?_
        subst ht
        exact ih.fields depth hu
      · next ms hskip' =>
        cases h
        rw [hskip'] at hvalue
        exact hvalue.cons_next fun t ht => ht.brace
      · cases h
    · cases h
  · cases h

theorem scanned (fuel : ℕ) : Scanned fuel := by
  induction fuel with
  | zero =>
    refine ⟨fun _ h => ?_, fun _ h => ?_, fun _ h => ?_⟩
    · rw [parseValue] at h
      cases h
    · rw [parseItems] at h
      cases h
    · rw [parseFields] at h
      cases h
  | succ fuel ih => exact ⟨scanned_value ih, scanned_items ih, scanned_fields ih⟩

/-- The scanner ends in `done` on the text of an object. -/
theorem scan_of_parseJson {cs : List Char} {v : JsValue}
    (h : parseJson ('\x7b' :: cs) = some v) : (normal 0).scan ('\x7b' :: cs) = done := by
  unfold parseJson at h
  obtain ⟨⟨value, rest⟩, hv, h⟩ := Option.bind_eq_some_iff.mp h
  dsimp only at h
  split at h
  · next hrest =>
    have hbraces : Takes (· = close 1) (normal 1) cs rest := by
      rw [parseValue, skipSpace_cons (by decide)] at hv
      exact takes_braces (scanned _) (by simpa using hv)
    obtain ⟨used, rfl, hused⟩ := hbraces
    have hspace : ∀ c ∈ rest, isJsonSpace c := by
      have hnil : rest.dropWhile isJsonSpace = [] := List.isEmpty_iff.mp hrest
      exact List.dropWhile_eq_nil_iff.mp hnil
    rw [scan_cons, scan_append, show (normal 0).next '\x7b' = normal 1 from rfl, hused]
    exact scan_spaces (s := done) (fun c hc => if_pos (isJsSpace_of_isJsonSpace hc)) hspace
  · cases h

/-! ## Cut texts -/

namespace ScanState

/-- Behind the first brace, and not behind the last one. -/
def Unfinished : ScanState → Prop
  | normal depth | quoted depth | escaped depth | closed depth => 0 < depth
  | done => False
  | dead => True

/-- The state inside of `k` more brackets. -/
def shift (k : ℕ) : ScanState → ScanState
  | normal depth => normal (depth + k)
  | quoted depth => quoted (depth + k)
  | escaped depth => escaped (depth + k)
  | closed depth => closed (depth + k)
  | done => normal k
  | dead => dead

theorem close_add {k depth : ℕ} (hk : 0 < k) (hd : close depth ≠ dead) :
    close (depth + k) = shift k (close depth) := by
  obtain ⟨k, rfl⟩ : ∃ k', k = k' + 1 := ⟨k - 1, by omega⟩
  match depth with
  | 0 => exact absurd rfl hd
  | 1 =>
    rw [show 1 + (k + 1) = k + 2 by omega]
    rfl
  | depth + 2 =>
    rw [show depth + 2 + (k + 1) = depth + (k + 1) + 2 by omega]
    simp only [close, shift]
    congr 1
    omega

theorem next_shift {k : ℕ} (hk : 0 < k) {s : ScanState} {c : Char} (hdone : s ≠ done)
    (hdead : s.next c ≠ dead) : (s.shift k).next c = (s.next c).shift k := by
  cases s with
  | normal depth =>
    simp only [next, shift] at hdead ⊢
    split
    · rfl
    split
    · change normal (depth + k + 1) = normal (depth + 1 + k)
      congr 1
      omega
    split
    · next h₁ h₂ h₃ =>
      rw [if_neg h₁, if_neg h₂, if_pos h₃] at hdead
      exact close_add hk hdead
    · rfl
  | quoted depth =>
    change (if c = '\"' then closed (depth + k) else if c = '\\' then escaped (depth + k)
      else quoted (depth + k)) = _
    simp only [next]
    split
    · rfl
    split <;> rfl
  | escaped depth => rfl
  | closed depth =>
    simp only [next, shift] at hdead ⊢
    split
    · rfl
    split
    · rfl
    split
    · next h₁ h₂ h₃ =>
      rw [if_neg h₁, if_neg h₂, if_pos h₃] at hdead
      exact close_add hk hdead
    · rfl
  | done => exact absurd rfl hdone
  | dead => exact absurd rfl hdead

/-- Behind a text that is not dead yet, no beginning was dead, and only spaces follow the end. -/
theorem scan_ne_dead {s : ScanState} {cs : List Char} (ds : List Char)
    (h : s.scan (cs ++ ds) ≠ dead) : s.scan cs ≠ dead := by
  intro he
  rw [scan_append, he, scan_dead] at h
  exact h rfl

/-- A text that goes on goes on, or it is finished. -/
theorem Unfinished.next {s : ScanState} (h : s.Unfinished) (c : Char) :
    (s.next c).Unfinished ∨ s.next c = done := by
  have hclose : ∀ depth, (close depth).Unfinished ∨ close depth = done := by
    intro depth
    match depth with
    | 0 => exact Or.inl trivial
    | 1 => exact Or.inr rfl
    | depth + 2 => exact Or.inl (Nat.succ_pos depth)
  cases s with
  | normal depth =>
    simp only [ScanState.next]
    split
    · exact Or.inl h
    split
    · exact Or.inl (Nat.succ_pos depth)
    split
    · exact hclose depth
    · exact Or.inl h
  | quoted depth =>
    simp only [ScanState.next]
    split
    · exact Or.inl h
    split
    · exact Or.inl h
    · exact Or.inl h
  | escaped depth => exact Or.inl h
  | closed depth =>
    simp only [ScanState.next]
    split
    · exact Or.inl h
    split
    · exact Or.inl h
    split
    · exact hclose depth
    · exact Or.inl trivial
  | done => exact absurd h id
  | dead => exact Or.inl trivial

/-- Half of a character, which is read as the replacement character, ends no text. -/
theorem Unfinished.torn {s : ScanState} (h : s.Unfinished) :
    (s.next (Char.ofNat 0xFFFD)).Unfinished := by
  refine (h.next _).resolve_right ?_
  cases s with
  | normal depth | quoted depth | escaped depth => nofun
  | closed depth => exact nofun
  | done => exact absurd h id
  | dead => nofun

theorem scan_unfinished_or_done {s : ScanState} (h : s.Unfinished ∨ s = done) (cs : List Char) :
    (s.scan cs).Unfinished ∨ s.scan cs = done := by
  induction cs generalizing s with
  | nil => exact h
  | cons c cs ih =>
    refine ih ?_
    rcases h with h | rfl
    · exact h.next c
    · simp only [ScanState.next]
      split
      · exact Or.inr rfl
      · exact Or.inl trivial

/-- Behind a finished text only spaces leave it finished. -/
theorem spaces_of_scan_done {cs : List Char} (h : done.scan cs = done) :
    ∀ c ∈ cs, isJsSpace c := by
  induction cs with
  | nil => nofun
  | cons c cs ih =>
    rw [scan_cons] at h
    cases hc : isJsSpace c with
    | false =>
      simp only [ScanState.next, hc, Bool.false_eq_true, if_false, scan_dead] at h
      cases h
    | true =>
      simp only [ScanState.next, hc, if_true] at h
      rintro d hd
      rcases List.mem_cons.mp hd with rfl | hd
      · exact hc
      · exact ih h d hd

end ScanState

/-- The text of an object whose first key starts with a letter. -/
structure ObjectText (text : List Char) : Prop where
  opens : ∃ c cs, text = '\x7b' :: '\"' :: c :: cs ∧ c.isAlpha
  closes : ∃ cs, text = cs ++ ['\x7d']
  scanned : (normal 0).scan text = done

namespace ObjectText

variable {text : List Char} (h : ObjectText text)
include h

/-- A beginning of the text does not end it. -/
theorem scan_ne_done {used rest : List Char} (he : text = used ++ rest) (hr : rest ≠ []) :
    (normal 0).scan used ≠ done := by
  intro hdone
  have hspace := h.scanned
  rw [he, scan_append, hdone] at hspace
  obtain ⟨cs, hcs⟩ := h.closes
  have hlast : '\x7d' ∈ rest := by
    have hl := congrArg List.getLast? (he.symm.trans hcs)
    rw [List.getLast?_append_of_ne_nil _ hr, List.getLast?_concat] at hl
    exact List.mem_of_getLast? hl
  exact absurd (spaces_of_scan_done hspace _ hlast) (by decide)

theorem scan_ne_dead {used rest : List Char} (he : text = used ++ rest) :
    (normal 0).scan used ≠ dead := by
  refine ScanState.scan_ne_dead rest ?_
  rw [← he, h.scanned]
  nofun

theorem unfinished {used rest : List Char} (he : text = used ++ rest) (hu : used ≠ [])
    (hr : rest ≠ []) : ((normal 0).scan used).Unfinished := by
  obtain ⟨c, cs, htext, -⟩ := h.opens
  cases used with
  | nil => exact absurd rfl hu
  | cons d used =>
    obtain rfl : d = '\x7b' := (List.cons.inj (he.symm.trans htext)).1
    refine (scan_unfinished_or_done (s := normal 1) (Or.inl Nat.one_pos) used).resolve_right ?_
    exact h.scan_ne_done he hr

/-- Inside of more brackets the text is scanned alike. -/
theorem scan_shift {k : ℕ} (hk : 0 < k) {used rest : List Char} (he : text = used ++ rest) :
    (normal k).scan used = ((normal 0).scan used).shift k := by
  induction used using List.reverseRecOn generalizing rest with
  | nil =>
    simp only [scan_nil, shift]
    congr 1
    omega
  | append_singleton used c ih =>
    have he' : text = used ++ c :: rest := by rw [he, List.append_assoc]; rfl
    have hdead := h.scan_ne_dead he
    rw [scan_append] at hdead
    rw [scan_append, scan_append, ih he']
    exact next_shift hk (h.scan_ne_done he' nofun) hdead

/-- In a string, the first quote closes the string, and no letter stands behind a string. -/
theorem unfinished_of_quoted {s : ScanState} {depth : ℕ} (hs : s.next '\x7b' = quoted depth)
    (hu : s.Unfinished) (hd : 0 < depth) {used rest : List Char} (he : text = used ++ rest) :
    (s.scan used).Unfinished := by
  obtain ⟨c, cs, htext, hc⟩ := h.opens
  rw [htext] at he
  match used with
  | [] => exact hu
  | [a] =>
    obtain rfl : '\x7b' = a := (List.cons.inj he).1
    rw [scan_cons, hs]
    exact hd
  | [a, b] =>
    obtain rfl : '\x7b' = a := (List.cons.inj he).1
    obtain rfl : '\"' = b := (List.cons.inj (List.cons.inj he).2).1
    rw [scan_cons, hs]
    exact hd
  | a :: b :: d :: used =>
    obtain rfl : '\x7b' = a := (List.cons.inj he).1
    obtain rfl : '\"' = b := (List.cons.inj (List.cons.inj he).2).1
    obtain rfl : c = d := (List.cons.inj (List.cons.inj (List.cons.inj he).2).2).1
    rw [scan_cons, hs, scan_cons, scan_cons]
    have hdead : ((quoted depth).next '\"').next c = dead := by
      have hspace : isJsonSpace c = false := by
        cases hjs : isJsonSpace c with
        | false => rfl
        | true =>
          simp only [isJsonSpace, Bool.or_eq_true, decide_eq_true_eq] at hjs
          rcases hjs with ((rfl | rfl) | rfl) | rfl <;> exact absurd hc (by decide)
      have hne : c ≠ ',' ∧ c ≠ ':' ∧ c ≠ '\x7d' ∧ c ≠ ']' := by
        refine ⟨?_, ?_, ?_, ?_⟩ <;> rintro rfl <;> exact absurd hc (by decide)
      simp [ScanState.next, hspace, hne]
    rw [hdead, scan_dead]
    trivial

/-- Behind a cut text, a beginning of the text does not finish it. -/
theorem unfinished_behind {s : ScanState} (hs : s.Unfinished) {used rest : List Char}
    (he : text = used ++ rest) : (s.scan used).Unfinished := by
  cases s with
  | normal depth =>
    rw [h.scan_shift hs he]
    have hdead := h.scan_ne_dead he
    cases hscan : (normal 0).scan used with
    | done => exact hs
    | dead => exact absurd hscan hdead
    | normal d | quoted d | escaped d | closed d => exact Nat.lt_of_lt_of_le hs (Nat.le_add_left _ _)
  | quoted depth => exact h.unfinished_of_quoted rfl hs hs he
  | escaped depth => exact h.unfinished_of_quoted rfl hs hs he
  | closed depth =>
    cases used with
    | nil => exact hs
    | cons c used =>
      obtain ⟨d, cs, htext, -⟩ := h.opens
      obtain rfl : c = '\x7b' := (List.cons.inj (he.symm.trans htext)).1
      rw [scan_cons, show (closed depth).next '\x7b' = dead from rfl, scan_dead]
      trivial
  | done => exact absurd hs id
  | dead =>
    rw [scan_dead]
    trivial

end ObjectText

/-! ## Printed texts -/

theorem not_mem_escapeChar (c : Char) : '\n' ∉ escapeChar c := by
  unfold escapeChar
  split
  any_goals decide
  split
  · next n _ _ _ _ _ _ _ hn =>
    have hall : ∀ n < 0x20, '\n' ∉ unicodeEscape n := by decide
    exact hall _ hn
  · next hn =>
    intro he
    rw [← List.mem_singleton.mp he] at hn
    exact hn (by decide)

theorem not_mem_quote (s : String) : '\n' ∉ quote s := by
  have hflat : '\n' ∉ s.toList.flatMap escapeChar := by
    intro he
    obtain ⟨c, -, hc⟩ := List.mem_flatMap.mp he
    exact not_mem_escapeChar c hc
  simp [quote, hflat]

theorem not_mem_of_isDigit {cs : List Char} (h : ∀ c ∈ cs, c.isDigit) : '\n' ∉ cs := by
  intro he
  exact absurd (h _ he) (by decide)

theorem not_mem_parseDigits {cs rest digits : List Char}
    (h : parseDigits cs = some (digits, rest)) : '\n' ∉ digits := by
  unfold parseDigits at h
  split at h
  · cases h
  · obtain ⟨rfl, -⟩ := Prod.mk.inj (Option.some.inj h)
    exact not_mem_of_isDigit fun c hc => List.mem_takeWhile_imp hc

theorem not_mem_parseFraction {cs rest text : List Char}
    (h : parseFraction cs = some (text, rest)) : '\n' ∉ text := by
  unfold parseFraction at h
  split at h
  · obtain ⟨r, hr, he⟩ := Option.map_eq_some_iff.mp h
    obtain ⟨rfl, -⟩ := Prod.mk.inj he
    simp [not_mem_parseDigits hr]
  · obtain ⟨rfl, -⟩ := Prod.mk.inj (Option.some.inj h)
    nofun

theorem not_mem_parseExponent {cs rest text : List Char}
    (h : parseExponent cs = some (text, rest)) : '\n' ∉ text := by
  unfold parseExponent at h
  split at h
  · obtain ⟨rfl, -⟩ := Prod.mk.inj (Option.some.inj h)
    exact List.not_mem_nil
  split at h
  · split at h
    all_goals
      obtain ⟨r, hr, he⟩ := Option.map_eq_some_iff.mp h
      obtain ⟨rfl, -⟩ := Prod.mk.inj he
      simp [not_mem_parseDigits hr]
  · obtain ⟨rfl, -⟩ := Prod.mk.inj (Option.some.inj h)
    exact List.not_mem_nil

theorem not_mem_parseUnsigned {cs digits text rest : List Char}
    (h : parseUnsigned cs = some (digits, text, rest)) : '\n' ∉ digits ∧ '\n' ∉ text := by
  unfold parseUnsigned at h
  obtain ⟨⟨d, r⟩, hd, h⟩ := Option.bind_eq_some_iff.mp h
  dsimp only at h
  split at h
  · cases h
  obtain ⟨⟨f, r'⟩, hf, h⟩ := Option.bind_eq_some_iff.mp h
  obtain ⟨⟨e, r''⟩, he, h⟩ := Option.bind_eq_some_iff.mp h
  obtain ⟨rfl, hs⟩ := Prod.mk.inj (Option.some.inj h)
  obtain ⟨rfl, -⟩ := Prod.mk.inj hs
  refine ⟨not_mem_parseDigits hd, ?_⟩
  rw [List.mem_append]
  exact not_or.mpr ⟨not_mem_parseFraction hf, not_mem_parseExponent he⟩

theorem not_mem_numberOf {negative : Bool} {digits rest : List Char} {text : String}
    (hd : '\n' ∉ digits) (hr : '\n' ∉ rest) (h : numberOf negative digits rest = .real text) :
    '\n' ∉ text.toList := by
  unfold numberOf at h
  split at h
  · cases h
  · rw [← JsValue.real.inj h, String.toList_ofList]
    cases negative <;> simp [hd, hr]

theorem NumberText.not_mem {text : String} (h : NumberText text) : '\n' ∉ text.toList := by
  unfold NumberText at h
  unfold parseNumber at h
  split at h
  all_goals
    obtain ⟨⟨d, r, rest⟩, hu, he⟩ := Option.map_eq_some_iff.mp h
    obtain ⟨hd, hr⟩ := not_mem_parseUnsigned hu
    exact not_mem_numberOf hd hr (Prod.mk.inj he).1

theorem not_mem_joinComma {texts : List (List Char)} (h : ∀ text ∈ texts, '\n' ∉ text) :
    '\n' ∉ joinComma texts := by
  induction texts with
  | nil => nofun
  | cons text texts ih =>
    have hrest := ih fun u hu => h u (List.mem_cons_of_mem _ hu)
    by_cases hne : texts = []
    · rw [hne, joinComma_singleton]
      exact h text List.mem_cons_self
    · rw [joinComma_cons hne]
      simp [h text List.mem_cons_self, hrest]

mutual
/-- A text that `JSON.stringify` wrote is one line. -/
theorem not_mem_textOf : (v : JsValue) → Printed v → '\n' ∉ textOf v
  | .undefined, _ => by simp [textOf, stringifyChars]
  | .null, _ => by simp [textOf, stringifyChars]
  | .bool true, _ => by simp [textOf, stringifyChars]
  | .bool false, _ => by simp [textOf, stringifyChars]
  | .int (.ofNat n), _ => by
    have ht : textOf (.int (.ofNat n)) = (toString (Int.ofNat n)).toList := by
      rw [textOf, stringifyChars]; rfl
    rw [ht, toList_toString_ofNat]
    exact not_mem_of_isDigit fun c hc => Nat.isDigit_of_mem_toDigits (by decide) (by decide) hc
  | .int (.negSucc n), _ => by
    have ht : textOf (.int (.negSucc n)) = (toString (Int.negSucc n)).toList := by
      rw [textOf, stringifyChars]; rfl
    have hdigits : '\n' ∉ Nat.toDigits 10 (n + 1) :=
      not_mem_of_isDigit fun c hc => Nat.isDigit_of_mem_toDigits (by decide) (by decide) hc
    rw [ht, toList_toString_negSucc]
    simp [hdigits]
  | .real text, h => by
    have hnumber : NumberText text := h
    have ht : textOf (.real text) = text.toList := by rw [textOf, stringifyChars]; rfl
    rw [ht]
    exact hnumber.not_mem
  | .str s, _ => by
    have ht : textOf (.str s) = quote s := by rw [textOf, stringifyChars]; rfl
    rw [ht]
    exact not_mem_quote s
  | .arr items, h => by
    have hitems := not_mem_joinComma (not_mem_stringifyItems items h)
    simp [textOf, stringifyChars, hitems]
  | .obj fields, h => by
    have hfields := not_mem_joinComma (not_mem_stringifyFields fields h.2)
    simp [textOf, stringifyChars, hfields]

theorem not_mem_stringifyItems : (items : List JsValue) → PrintedItems items →
    ∀ text ∈ stringifyItems items, '\n' ∉ text
  | [], _ => nofun
  | item :: items, h => by
    rw [stringifyItems_cons h.1]
    exact List.forall_mem_cons.mpr ⟨not_mem_textOf item h.1, not_mem_stringifyItems items h.2⟩

theorem not_mem_stringifyFields : (fields : List (String × JsValue)) → PrintedFields fields →
    ∀ text ∈ stringifyFields fields, '\n' ∉ text
  | [], _ => nofun
  | (key, value) :: fields, h => by
    rw [stringifyFields_cons h.1]
    refine List.forall_mem_cons.mpr ⟨?_, not_mem_stringifyFields fields h.2⟩
    simp [not_mem_quote key, not_mem_textOf value h.1]
end

/-- What `JSON.stringify` writes for an object whose first key starts with a letter. -/
theorem objectText_textOf {key : String} {value : JsValue} {fields : List (String × JsValue)}
    {c : Char} {cs : List Char} (hkey : key.toList = c :: cs) (hc : c.isAlpha)
    (hescape : escapeChar c = [c])
    (h : Printed (.obj ((key, value) :: fields))) :
    ObjectText (textOf (.obj ((key, value) :: fields))) := by
  have hq : quote key ++ ':' :: textOf value =
      '\"' :: c :: (cs.flatMap escapeChar ++ '\"' :: ':' :: textOf value) := by
    simp [quote, hkey, hescape]
  have hopens : ∃ rest, textOf (.obj ((key, value) :: fields)) = '\x7b' :: '\"' :: c :: rest := by
    have hv := stringifyFields_cons h.2.1 key fields
    rw [textOf, stringifyChars, Option.getD_some, hv]
    by_cases hne : stringifyFields fields = []
    · rw [hne, joinComma_singleton, hq]
      exact ⟨_, rfl⟩
    · rw [joinComma_cons hne, hq]
      exact ⟨_, rfl⟩
  obtain ⟨rest, hrest⟩ := hopens
  refine ⟨⟨c, rest, hrest, hc⟩, ?_, ?_⟩
  · rw [textOf, stringifyChars]
    exact ⟨_, rfl⟩
  · have hp := parseJson_textOf h
    rw [hrest] at hp ⊢
    exact scan_of_parseJson hp

end Qualigence.Protocol
