import Mathlib.Data.List.Basic

/-! # The grammar of JSON texts

The texts that `JSON.parse` reads, as code units, with the values that they denote. Each relation
holds between a text, what its beginning denotes and what follows, so that the units of a string
are compared as they are, surrogates on their own among them. The properties of an object are
listed as they are written, also when a name is written twice.
-/

namespace Qualigence.Protocol.JsonGrammar

/-! ## Units -/

/-- The code unit of a character outside the supplementary planes. -/
abbrev unit (c : Char) : ℕ := c.toNat

abbrev quote : ℕ := unit '\"'

abbrev backslash : ℕ := unit '\\'

def isJsonWhitespace (u : ℕ) : Bool :=
  u = unit ' ' || u = unit '\t' || u = unit '\n' || u = unit '\r'

def isDigitUnit (u : ℕ) : Bool := unit '0' ≤ u ∧ u ≤ unit '9'

def hexUnit (u : ℕ) : Option ℕ :=
  if isDigitUnit u then some (u - unit '0')
  else if unit 'a' ≤ u ∧ u ≤ unit 'f' then some (u - unit 'a' + 10)
  else if unit 'A' ≤ u ∧ u ≤ unit 'F' then some (u - unit 'A' + 10)
  else none

/-- What a letter after a backslash stands for. -/
def escapeUnit (u : ℕ) : Option ℕ :=
  if u = quote ∨ u = backslash ∨ u = unit '/' then some u
  else if u = unit 'b' then some 8
  else if u = unit 'f' then some 12
  else if u = unit 'n' then some 10
  else if u = unit 'r' then some 13
  else if u = unit 't' then some 9
  else none

/-! ## White space and strings -/

/-- A run of white space, of whichever kind, stands before `t`. -/
inductive Spaces (space : ℕ → Bool) : List ℕ → List ℕ → Prop
  | done (t : List ℕ) : Spaces space t t
  | more {u : ℕ} {s t : List ℕ} : space u → Spaces space s t → Spaces space (u :: s) t

/-- The units of a string up to the quote that closes it. -/
inductive Chars : List ℕ → List ℕ → List ℕ → Prop
  | close (t : List ℕ) : Chars (quote :: t) [] t
  | plain {u : ℕ} {s text t : List ℕ} : 0x20 ≤ u → u ≠ quote → u ≠ backslash → Chars s text t →
      Chars (u :: s) (u :: text) t
  | escape {e u : ℕ} {s text t : List ℕ} : escapeUnit e = some u → Chars s text t →
      Chars (backslash :: e :: s) (u :: text) t
  | code {a b c d a' b' c' d' : ℕ} {s text t : List ℕ} : hexUnit a = some a' →
      hexUnit b = some b' → hexUnit c = some c' → hexUnit d = some d' → Chars s text t →
      Chars (backslash :: unit 'u' :: a :: b :: c :: d :: s)
        ((a' * 4096 + b' * 256 + c' * 16 + d') :: text) t

inductive Literal : List ℕ → List ℕ → List ℕ → Prop
  | mk {s text t : List ℕ} : Chars s text t → Literal (quote :: s) text t

/-! ## Numbers -/

def Digits (digits : List ℕ) : Prop := digits ≠ [] ∧ ∀ d ∈ digits, isDigitUnit d

/-- Digits that do not start with a needless zero. -/
def IntegerPart (digits : List ℕ) : Prop :=
  Digits digits ∧ (digits.head? = some (unit '0') → digits.length = 1)

def Fraction (text : List ℕ) : Prop :=
  text = [] ∨ ∃ digits, Digits digits ∧ text = unit '.' :: digits

def Exponent (text : List ℕ) : Prop :=
  text = [] ∨ ∃ e sign digits, (e = unit 'e' ∨ e = unit 'E') ∧
    (sign = [] ∨ sign = [unit '+'] ∨ sign = [unit '-']) ∧ Digits digits ∧
    text = e :: (sign ++ digits)

def Numeral (text : List ℕ) : Prop :=
  ∃ sign int fraction exponent, (sign = [] ∨ sign = [unit '-']) ∧ IntegerPart int ∧
    Fraction fraction ∧ Exponent exponent ∧ text = sign ++ int ++ fraction ++ exponent

/-! ## Values -/

/-- A value as it is written: a number by its numeral, an object by all its properties. -/
inductive Json where
  | null
  | bool (b : Bool)
  | number (numeral : List ℕ)
  | string (text : List ℕ)
  | array (items : List Json)
  | object (members : List (List ℕ × Json))

mutual
inductive Value : List ℕ → Json → List ℕ → Prop
  | null (t : List ℕ) : Value (['n', 'u', 'l', 'l'].map unit ++ t) .null t
  | true_ (t : List ℕ) : Value (['t', 'r', 'u', 'e'].map unit ++ t) (.bool true) t
  | false_ (t : List ℕ) : Value (['f', 'a', 'l', 's', 'e'].map unit ++ t) (.bool false) t
  | number {numeral : List ℕ} (t : List ℕ) : Numeral numeral →
      Value (numeral ++ t) (.number numeral) t
  | string {s text t : List ℕ} : Literal s text t → Value s (.string text) t
  | emptyArray {s t : List ℕ} : Spaces isJsonWhitespace s (unit ']' :: t) →
      Value (unit '[' :: s) (.array []) t
  | array {s t : List ℕ} {items : List Json} : Elements s items (unit ']' :: t) →
      Value (unit '[' :: s) (.array items) t
  | emptyObject {s t : List ℕ} : Spaces isJsonWhitespace s (unit '\x7d' :: t) →
      Value (unit '\x7b' :: s) (.object []) t
  | object {s t : List ℕ} {members : List (List ℕ × Json)} : Members s members (unit '\x7d' :: t) →
      Value (unit '\x7b' :: s) (.object members) t

/-- A value between white space. -/
inductive Element : List ℕ → Json → List ℕ → Prop
  | mk {s s' t t' : List ℕ} {v : Json} : Spaces isJsonWhitespace s s' → Value s' v t' →
      Spaces isJsonWhitespace t' t → Element s v t

inductive Elements : List ℕ → List Json → List ℕ → Prop
  | one {s t : List ℕ} {v : Json} : Element s v t → Elements s [v] t
  | more {s s' t : List ℕ} {v : Json} {items : List Json} : Element s v (unit ',' :: s') →
      Elements s' items t → Elements s (v :: items) t

inductive Member : List ℕ → List ℕ × Json → List ℕ → Prop
  | mk {s s₁ s₂ s₃ key t : List ℕ} {v : Json} : Spaces isJsonWhitespace s s₁ →
      Literal s₁ key s₂ → Spaces isJsonWhitespace s₂ (unit ':' :: s₃) → Element s₃ v t →
      Member s (key, v) t

inductive Members : List ℕ → List (List ℕ × Json) → List ℕ → Prop
  | one {s t : List ℕ} {m : List ℕ × Json} : Member s m t → Members s [m] t
  | more {s s' t : List ℕ} {m : List ℕ × Json} {members : List (List ℕ × Json)} :
      Member s m (unit ',' :: s') → Members s' members t → Members s (m :: members) t
end

/-- A text that is one value. -/
def Document (source : List ℕ) (v : Json) : Prop := Element source v []

/-! ## White space -/

section Spaces

variable {space : ℕ → Bool}

theorem spaces_dropWhile (s : List ℕ) : Spaces space s (s.dropWhile space) := by
  induction s with
  | nil => exact .done []
  | cons u s ih =>
    rw [List.dropWhile_cons]
    split
    · next h => exact .more h ih
    · exact .done (u :: s)

/-- All white space before something else is dropped. -/
theorem Spaces.dropWhile_eq {s t : List ℕ} (h : Spaces space s t)
    (ht : ∀ u ∈ t.head?, space u = false) : s.dropWhile space = t := by
  induction h with
  | done t =>
    cases t with
    | nil => rfl
    | cons u t => rw [List.dropWhile_cons, ht u rfl, if_neg Bool.false_ne_true]
  | more hu _ ih => rw [List.dropWhile_cons, if_pos hu, ih ht]

theorem Spaces.trans {s t r : List ℕ} (h : Spaces space s t) (h' : Spaces space t r) :
    Spaces space s r := by
  induction h with
  | done t => exact h'
  | more hu _ ih => exact .more hu (ih h')

theorem Spaces.length_le {s t : List ℕ} (h : Spaces space s t) : t.length ≤ s.length := by
  induction h with
  | done t => exact Nat.le_refl _
  | more _ _ ih =>
    rw [List.length_cons]
    omega

end Spaces

/-! ## Strings -/

theorem backslash_ne_quote : backslash ≠ quote := by decide

theorem hexUnit_ne {a a' : ℕ} (h : hexUnit a = some a') : a ≠ quote ∧ a ≠ backslash := by
  constructor <;> rintro rfl <;> cases h

/-- What follows the closing quote does not matter. -/
theorem Chars.append {s text t : List ℕ} (h : Chars s text t) (rest : List ℕ) :
    Chars (s ++ rest) text (t ++ rest) := by
  induction h with
  | close t => exact .close (t ++ rest)
  | plain hu hq hb _ ih => exact .plain hu hq hb ih
  | escape he _ ih => exact .escape he ih
  | code ha hb hc hd _ ih => exact .code ha hb hc hd ih

theorem Chars.length_lt {s text t : List ℕ} (h : Chars s text t) : t.length < s.length := by
  induction h <;> simp only [List.length_cons] at * <;> omega

theorem Literal.length_lt {s text t : List ℕ} (h : Literal s text t) : t.length < s.length := by
  obtain ⟨h⟩ := h
  have := h.length_lt
  rw [List.length_cons]
  omega

/-! ## Objects of strings -/

/-- A property whose value is a string, with one kind of white space around its parts. -/
inductive Entry (space : ℕ → Bool) : List ℕ → List ℕ × List ℕ → List ℕ → Prop
  | mk {s s₁ s₂ s₃ s₄ s₅ key text t : List ℕ} : Spaces space s s₁ → Literal s₁ key s₂ →
      Spaces space s₂ (unit ':' :: s₃) → Spaces space s₃ s₄ → Literal s₄ text s₅ →
      Spaces space s₅ t → Entry space s (key, text) t

inductive Entries (space : ℕ → Bool) : List ℕ → List (List ℕ × List ℕ) → List ℕ → Prop
  | one {s t : List ℕ} {e : List ℕ × List ℕ} : Entry space s e t → Entries space s [e] t
  | more {s s' t : List ℕ} {e : List ℕ × List ℕ} {entries : List (List ℕ × List ℕ)} :
      Entry space s e (unit ',' :: s') → Entries space s' entries t →
      Entries space s (e :: entries) t

/-- A text that is an object of strings, with one kind of white space between its parts. -/
inductive StringObject (space : ℕ → Bool) : List ℕ → List (List ℕ × List ℕ) → Prop
  | empty {s s₁ s₂ : List ℕ} : Spaces space s (unit '\x7b' :: s₁) →
      Spaces space s₁ (unit '\x7d' :: s₂) → Spaces space s₂ [] → StringObject space s []
  | entries {s s₁ s₂ : List ℕ} {entries : List (List ℕ × List ℕ)} :
      Spaces space s (unit '\x7b' :: s₁) → Entries space s₁ entries (unit '\x7d' :: s₂) →
      Spaces space s₂ [] → StringObject space s entries

/-- Entries may follow white space. -/
theorem Entries.behind {space : ℕ → Bool} {s s' t : List ℕ} {entries : List (List ℕ × List ℕ)}
    (h : Entries space s' entries t) (hs : Spaces space s s') : Entries space s entries t := by
  cases h with
  | one he =>
    obtain ⟨h₁, hkey, h₂, h₃, htext, h₄⟩ := he
    exact .one (.mk (hs.trans h₁) hkey h₂ h₃ htext h₄)
  | more he hrest =>
    obtain ⟨h₁, hkey, h₂, h₃, htext, h₄⟩ := he
    exact .more (.mk (hs.trans h₁) hkey h₂ h₃ htext h₄) hrest

def stringMembers (entries : List (List ℕ × List ℕ)) : List (List ℕ × Json) :=
  entries.map fun e => (e.1, .string e.2)

theorem entry_iff {s t : List ℕ} {e : List ℕ × List ℕ} :
    Entry isJsonWhitespace s e t ↔ Member s (e.1, .string e.2) t := by
  obtain ⟨key, text⟩ := e
  constructor
  · intro h
    cases h with
    | mk h₁ hkey h₂ h₃ htext h₄ => exact .mk h₁ hkey h₂ (.mk h₃ (.string htext) h₄)
  · intro h
    cases h with
    | mk h₁ hkey h₂ helement =>
      cases helement with
      | mk h₃ hvalue h₄ =>
        cases hvalue with
        | string htext => exact .mk h₁ hkey h₂ h₃ htext h₄

theorem entries_iff {entries : List (List ℕ × List ℕ)} {s t : List ℕ} :
    Entries isJsonWhitespace s entries t ↔ Members s (stringMembers entries) t := by
  induction entries generalizing s with
  | nil => constructor <;> intro h <;> cases h
  | cons e entries ih =>
    constructor
    · intro h
      cases h with
      | one he => exact .one (entry_iff.mp he)
      | more he hs => exact .more (entry_iff.mp he) (ih.mp hs)
    · intro h
      cases entries with
      | nil =>
        cases h with
        | one hm => exact .one (entry_iff.mpr hm)
        | more _ hs => cases hs
      | cons e' entries =>
        cases h with
        | more hm hs => exact .more (entry_iff.mpr hm) (ih.mpr hs)

/-- With the white space of JSON, these are the documents that are objects of strings. -/
theorem stringObject_iff {s : List ℕ} {entries : List (List ℕ × List ℕ)} :
    StringObject isJsonWhitespace s entries ↔ Document s (.object (stringMembers entries)) := by
  constructor
  · intro h
    cases h with
    | empty h₁ h₂ h₃ => exact .mk h₁ (.emptyObject h₂) h₃
    | entries h₁ hs h₃ => exact .mk h₁ (.object (entries_iff.mp hs)) h₃
  · intro h
    cases h with
    | mk h₁ hvalue h₃ =>
      generalize hmembers : stringMembers entries = members at hvalue
      cases hvalue with
      | emptyObject h₂ =>
        obtain rfl := List.map_eq_nil_iff.mp hmembers
        exact .empty h₁ h₂ h₃
      | object hs =>
        subst hmembers
        exact .entries h₁ (entries_iff.mpr hs) h₃

end Qualigence.Protocol.JsonGrammar
